import NodeShader.Diagnostic
import NodeShader.Glsl.Brackets
import NodeShader.Glsl.Grammar.Program
import NodeShader.Glsl.Scope
import NodeShader.Text.Character

/-!
# Checking shader text

`checkSource` reports what is wrong with the text of a fragment shader, given a parser for such
texts. An empty text, brackets that are not nested, a text that does not parse, a missing entry
point and a `float` that begins as a vector are errors. Uniforms of unknown type, names used before
their declaration and calls of unknown functions are warnings.
-/

namespace NodeShader.Glsl

/-- What a check found, and what may be done about it. -/
structure SourceReport where
  diagnostics : List Diagnostic := []
  suggestions : List String := []
deriving DecidableEq, Repr

/-- The uniforms that every host supplies, with their types. -/
def hostUniforms : List (String × String) :=
  [("iTime", "float"), ("iResolution", "vec2"), ("iMouse", "vec2")]

def errorDiagnostic (message : String) : Diagnostic where
  kind := .invalidSource
  message := message

def warningDiagnostic (message : String) : Diagnostic where
  kind := .sourceWarning
  message := message

namespace Scope

/-- The errors, and then the warnings, about the names of a shader. -/
def diagnostics (s : Scope) : List Diagnostic :=
  s.narrowings.map (fun (name, vector) =>
    errorDiagnostic s!"float '{name}' initialized with {vector}") ++
  s.unknownUniforms.map (fun (name, type) =>
    warningDiagnostic s!"uniform '{name}' has unknown type '{type}'") ++
  s.undeclared.map (fun name => warningDiagnostic s!"'{name}' used before declaration") ++
  s.unknownCalls.map (fun name => warningDiagnostic s!"call to undeclared function '{name}'")

/-- How to mend the names that are not known. -/
def suggestions (s : Scope) : List String :=
  s.undeclared.filterMap (fun name =>
    (hostUniforms.lookup name).map fun type => s!"declare 'uniform {type} {name};'") ++
  s.unknownCalls.map (fun name => s!"add an implementation of '{name}' before its first use")

end Scope

/-- The report on a shader that parses. -/
def Program.report (p : Program) : SourceReport :=
  let scope := Scope.ofMentions p.mentions
  { diagnostics :=
      (if p.hasEntryPoint then []
        else [errorDiagnostic "missing entry point: expected main or mainImage"]) ++
      scope.diagnostics
    suggestions := scope.suggestions }

/-- A parser of shader text. Where it fails it may say why, in a text of several lines. -/
abbrev Parser := String → Except (Option String) Program

/-- The parser of the grammar. It does not say why it fails. -/
def Parser.grammar : Parser := fun source =>
  match parse? source with
  | some p => .ok p
  | none => .error none

/-- The first line that is not blank, without white space at its ends. -/
def firstLine? (info : String) : Option String :=
  let lines := (info.toList.splitOn '\n').map trimBlank
  (lines.find? (fun line => !line.isEmpty)).map String.ofList

/-- What is said of a text that does not parse. -/
def syntaxError : (info : Option String) → String
  | none => "syntax error"
  | some info =>
    let detail := (firstLine? info).getD "unexpected input"
    s!"syntax error: {detail}"

/-- The report on the text of a shader. The first fault of a text that does not parse is the
only one. -/
def checkSource (parse : Parser) (source : String) : SourceReport :=
  if blankText source then
    { diagnostics := [errorDiagnostic "empty shader source"] }
  else
    match bracketFault? source with
    | some fault => { diagnostics := [errorDiagnostic fault.message] }
    | none =>
      match parse source with
      | .error info => { diagnostics := [errorDiagnostic (syntaxError info)] }
      | .ok p => p.report

end NodeShader.Glsl
