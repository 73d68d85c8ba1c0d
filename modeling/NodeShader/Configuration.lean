import NodeShader.Number.Decimal
import NodeShader.Options
import NodeShader.Ron.Reader

/-!
# Configuration

The settings of a compiler and of its sessions, kept in a settings file. Fields that are
missing have their defaults, and fields that are not known are ignored.
-/

namespace NodeShader

/-- The options of every compilation, and the window of sessions in milliseconds. -/
structure Configuration where
  options : Options := {}
  window : Nat := 500
deriving DecidableEq, Repr

namespace Ron

/-- The values for the known fields, none of which comes twice. -/
def collect? (known : List String) : List (String × Ron) → Option (List (Option Ron))
  | [] => some (known.map fun _ => none)
  | (name, v) :: rest => do
    let values ← collect? known rest
    match known.findIdx? (· == name) with
    | none => return values
    | some i =>
      match values[i]? with
      | some none => return values.set i (some v)
      | _ => none

/-- The values for the known fields of a record that bears no other name than the given one. -/
def fields? (typeName : String) (known : List String) : Ron → Option (List (Option Ron))
  | record name fields => if name.all (· == typeName) then collect? known fields else none
  | _ => none

def bool? : Ron → Option Bool
  | bool b => some b
  | _ => none

/-- One of several named alternatives. -/
def choice? {α : Type} (ofName? : String → Option α) : Ron → Option α
  | word name => ofName? name
  | _ => none

/-- A whole number of 64 bits without a sign. -/
def word? : Ron → Option Nat
  | number n => if fitsUnsigned 64 n then some n.toNat else none
  | _ => none

/-- The value of a field with a default. -/
def defaulted? {α : Type} (default : α) (decode : Ron → Option α) : Option Ron → Option α
  | some v => decode v
  | none => some default

end Ron

/-- Reads options from settings. -/
def Options.ofRon? (v : Ron) : Option Options := do
  match ← v.fields? "CompileOptions" ["language", "optimize", "entryPoint"] with
  | [language, optimize, entryPoint] =>
    return ⟨← Ron.defaulted? .glsl (Ron.choice? Language.ofName?) language,
      ← Ron.defaulted? true Ron.bool? optimize,
      ← Ron.defaulted? .main (Ron.choice? EntryPoint.ofName?) entryPoint⟩
  | _ => none

namespace Configuration

/-- Reads the window of sessions from settings. -/
def windowOfRon? (v : Ron) : Option Nat := do
  match ← v.fields? "SessionConfig" ["debounce_ms"] with
  | [window] => Ron.defaulted? 500 Ron.word? window
  | _ => none

def ofRon? (v : Ron) : Option Configuration := do
  match ← v.fields? "CompilerConfig" ["options", "session"] with
  | [options, session] =>
    return ⟨← Ron.defaulted? {} Options.ofRon? options, ← Ron.defaulted? 500 windowOfRon? session⟩
  | _ => none

/-- Reads a settings file. -/
def ofText? (source : String) : Option Configuration := do ofRon? (← Ron.read? source)

def toRon (c : Configuration) : Ron :=
  .record none [
    ("options", .record none [
      ("language", .word c.options.language.name),
      ("optimize", .bool c.options.optimize),
      ("entryPoint", .word c.options.entryPoint.name)]),
    ("session", .record none [("debounce_ms", .number c.window)])]

/-- The text of a settings file. -/
def toText (c : Configuration) : String := c.toRon.toText

end Configuration

end NodeShader
