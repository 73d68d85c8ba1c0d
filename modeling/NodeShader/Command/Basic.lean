import NodeShader.Command.Arguments
import NodeShader.NodeType
import NodeShader.Options

/-!
# Commands

The commands of the program: compile a graph, check a shader, list the node types.
-/

namespace NodeShader

/-- What a compilation is asked for. The entry point and the switches win over the
configuration. -/
structure CompileCommand where
  graph : String
  configuration : Option String := none
  keepAll : Bool := false
  entryPoint : Option EntryPoint := none
  codeOnly : Bool := false
deriving DecidableEq, Repr

inductive Command where
  | compile (c : CompileCommand)
  | check (source : String)
  | nodes (category : Option Category)
deriving DecidableEq, Repr

namespace Command

/-- A path; it is not empty. -/
def path? (text : String) : Option String := if text.isEmpty then none else some text

/-- The only argument that is not an option, a path. -/
def onlyPath? (a : Arguments) : Option String :=
  match a.others with
  | [path] => path? path
  | _ => none

/-- An optional value that must be understood if it is given. -/
def optional? {α : Type} (value : Option String) (read? : String → Option α) :
    Option (Option α) :=
  match value with
  | none => some none
  | some text => (read? text).map some

def compileForms : List OptionForm :=
  [{ name := "config", letter := some 'c' }, { name := "entry", letter := some 'e' },
    { name := "no-optimize", takesValue := false }, { name := "code-only", takesValue := false }]

def nodesForms : List OptionForm := [{ name := "category", letter := some 'c' }]

/-- The command that the arguments of the program ask for. -/
def ofArguments? : List String → Option Command
  | "compile" :: rest => do
    let a ← Arguments.sort? compileForms rest
    return .compile {
      graph := ← onlyPath? a
      configuration := ← optional? (a.value? "config") path?
      keepAll := a.has "no-optimize"
      entryPoint := ← optional? (a.value? "entry") EntryPoint.ofName?
      codeOnly := a.has "code-only" }
  | "check" :: rest => do
    let a ← Arguments.sort? [] rest
    return .check (← onlyPath? a)
  | "nodes" :: rest => do
    let a ← Arguments.sort? nodesForms rest
    if a.others.isEmpty then
      return .nodes (← optional? (a.value? "category") Category.ofName?)
    else
      none
  | _ => none

/-- The files that a command reads. -/
def files : Command → List String
  | compile c => c.configuration.toList ++ [c.graph]
  | check source => [source]
  | nodes _ => []

end Command

end NodeShader
