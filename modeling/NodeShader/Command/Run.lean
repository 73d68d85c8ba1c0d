import NodeShader.Command.Basic
import NodeShader.Configuration
import NodeShader.Wire.Encode
import NodeShader.Wire.Request

/-!
# Running commands

`Command.run` answers a command, given the files that can be read.
-/

namespace NodeShader

/-- What a command prints. -/
inductive Printout where
  | response (c : Compilation)
  | code (text : String)
  | summary (s : Summary)
  | nodeTypes (types : List NodeType)

/-- What a command prints, what it reports besides, and whether it is content. -/
structure Outcome where
  printout : Printout
  remarks : List String := []
  accepted : Bool

/-- Why a command has no outcome. -/
inductive CommandError where
  | unreadable (path : String)
  | invalidGraph (path : String) (cause : WireError)
  | unreadableConfiguration (path : String)
  | invalidConfiguration
deriving DecidableEq, Repr

def CommandError.message : CommandError → String
  | unreadable path => s!"failed to read {path}"
  | invalidGraph path cause =>
    s!"invalid graph in {path}" ++ (match cause.message? with
      | some message => ": " ++ message
      | none => "")
  | unreadableConfiguration path => s!"failed to access {path}"
  | invalidConfiguration => "invalid config"

/-- The contents of files, by their paths. -/
abbrev Files := String → Option String

/-- The contents of a file that must be there. -/
def Files.get (files : Files) (path : String) : Except CommandError String :=
  match files path with
  | some text => .ok text
  | none => .error (.unreadable path)

namespace CompileCommand

/-- The options of the configuration. -/
def baseOptions (c : CompileCommand) (files : Files) : Except CommandError Options :=
  match c.configuration with
  | none => .ok {}
  | some path =>
    match files path with
    | none => .error (.unreadableConfiguration path)
    | some text =>
      match Configuration.ofText? text with
      | none => .error .invalidConfiguration
      | some configuration => .ok configuration.options

/-- The options of the configuration, and then the switches. -/
def options (c : CompileCommand) (files : Files) : Except CommandError Options := do
  let base ← c.baseOptions files
  return { base with
    optimize := base.optimize && !c.keepAll
    entryPoint := c.entryPoint.getD base.entryPoint }

def readGraph (c : CompileCommand) (files : Files) : Except CommandError Graph := do
  match Graph.ofText (← files.get c.graph) with
  | .ok g => return g
  | .error cause => throw (.invalidGraph c.graph cause)

/-- The remarks that go with bare code. -/
def remarks (c : Compilation) : List String :=
  (if c.succeeded then [] else c.summary.errors.map ("error: " ++ ·)) ++
    c.summary.warnings.map ("warning: " ++ ·) ++ c.summary.suggestions.map ("help: " ++ ·)

def run (c : CompileCommand) (files : Files) : Except CommandError Outcome := do
  let options ← c.options files
  let g ← c.readGraph files
  let compilation := Compiler.respond ⟨.catalog, options⟩ ⟨g, options.language, options.optimize⟩
  let accepted := compilation.succeeded
  if c.codeOnly then
    return ⟨.code (if accepted then compilation.artifact.code else ""), remarks compilation, accepted⟩
  else
    return ⟨.response compilation, [], accepted⟩

end CompileCommand

/-- The outcome of a command. -/
def Command.run (files : Files) : Command → Except CommandError Outcome
  | compile c => c.run files
  | check source => do
    let summary := summarizeSource (← files.get source)
    return ⟨.summary summary, [], summary.isValid⟩
  | nodes category =>
    let types :=
      match category with
      | none => Registry.catalog.types
      | some c => Registry.catalog.ofCategory c
    .ok ⟨.nodeTypes types, [], true⟩

/-- The document that is printed, or else the text. A response tells the time it took. -/
def Printout.document (time : Option Decimal) : Printout → Json ⊕ String
  | response c => .inl (.record (c.responseFields ++ (match time with
      | some time => [("totalTime", .real time)]
      | none => [])))
  | code text => .inr text
  | summary s => .inl s.toJson
  | nodeTypes types => .inl (.list (types.map NodeType.toJson))

/-- The status of the program: zero if the command is content, and one if not. -/
def Outcome.status (o : Outcome) : Nat := if o.accepted then 0 else 1

/-- The status of the program when it cannot run a command. -/
def failureStatus : Nat := 2

end NodeShader
