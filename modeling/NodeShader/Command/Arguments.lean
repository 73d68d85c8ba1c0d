/-!
# Arguments of a command

Options are written `--name value`, `--name=value`, `-n value` or `-nvalue`, and may stand
anywhere among the other arguments. After `--` there are no options any more. No option may be
given twice.
-/

namespace NodeShader

/-- An option of a command; without `takesValue` it is a switch. -/
structure OptionForm where
  name : String
  letter : Option Char := none
  takesValue : Bool := true
deriving DecidableEq, Repr

/-- The options that are given, with their values, and the other arguments. -/
structure Arguments where
  options : List (String × String) := []
  others : List String := []
deriving DecidableEq, Repr

namespace Arguments

/-- Whether an argument looks like an option. -/
def looksLikeOption (argument : String) : Bool :=
  argument.toList.head? == some '-' && argument != "-"

/-- Adds an option in front, unless it is there. -/
def addOption? (a : Arguments) (name value : String) : Option Arguments :=
  if (a.options.lookup name).isSome then none
  else some { a with options := (name, value) :: a.options }

def addOther (a : Arguments) (argument : String) : Arguments :=
  { a with others := argument :: a.others }

/-- The option that an argument begins with, and the value attached to it. -/
def optionOf? (forms : List OptionForm) (argument : List Char) :
    Option (OptionForm × Option (List Char)) :=
  match argument with
  | '-' :: '-' :: rest =>
    let name := rest.takeWhile (· != '=')
    let attached :=
      match rest.dropWhile (· != '=') with
      | '=' :: value => some value
      | _ => none
    (forms.find? (fun f => f.name.toList == name)).map fun f => (f, attached)
  | '-' :: letter :: rest =>
    let attached :=
      match rest with
      | [] => none
      | '=' :: value => some value
      | value => some value
    (forms.find? (fun f => f.letter == some letter)).map fun f => (f, attached)
  | _ => none

/-- Sorts the arguments of a command, unless one of them is wrong. -/
def sort? (forms : List OptionForm) : List String → Option Arguments
  | [] => some {}
  | argument :: rest =>
    if argument = "--" then
      some { others := rest }
    else if looksLikeOption argument then
      match optionOf? forms argument.toList with
      | none => none
      | some (form, attached) =>
        match form.takesValue, attached, rest with
        | false, none, rest => do (← sort? forms rest).addOption? form.name ""
        | false, some _, _ => none
        | true, some value, rest => do
          (← sort? forms rest).addOption? form.name (String.ofList value)
        | true, none, [] => none
        | true, none, value :: rest =>
          if looksLikeOption value then none
          else do (← sort? forms rest).addOption? form.name value
    else do
      return (← sort? forms rest).addOther argument

/-- The value of an option. -/
def value? (a : Arguments) (name : String) : Option String := a.options.lookup name

/-- Whether a switch is on. -/
def has (a : Arguments) (name : String) : Bool := (a.value? name).isSome

end Arguments

end NodeShader
