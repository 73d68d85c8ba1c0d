import NodeShader.Catalog
import NodeShader.Glsl.Check
import NodeShader.Options
import NodeShader.Shader.Emission
import NodeShader.Validation

/-!
# The compiler

A compiler is a registry with options. `Compiler.compile` writes a graph that is assumed to be
valid, `Compiler.compileAndValidate` checks the graph first and the text afterwards. Whatever is
wrong with a graph comes back as a diagnostic in an ordinary result.
-/

namespace NodeShader

/-- A compiled shader, or the reason why there is none: with an `error` the code is empty. -/
structure Artifact where
  code : String := ""
  uniforms : List Uniform := []
  functions : List String := []
  error : Option String := none
  warnings : List String := []
deriving DecidableEq, Repr

namespace Artifact

/-- The artifact of a compilation that failed. -/
def failed (errors : List Diagnostic) : Artifact := { error := some (Diagnostic.joined errors) }

def ofShader (s : Shader) : Artifact :=
  { code := s.code, uniforms := s.uniforms, functions := s.functions }

end Artifact

/-- Diagnostics in the order of the checks, and proposals from the check of the text. -/
structure Summary where
  diagnostics : List Diagnostic := []
  suggestions : List String := []
deriving DecidableEq, Repr

namespace Summary

/-- The texts of the diagnostics of a severity. -/
def texts (s : Summary) (severity : Severity) : List String :=
  (s.diagnostics.filter (fun d => d.severity == severity)).map Diagnostic.text

def errors (s : Summary) : List String := s.texts .error

def warnings (s : Summary) : List String := s.texts .warning

/-- Whether there is no error. -/
def isValid (s : Summary) : Bool := s.errors.isEmpty

def ofReport (r : Glsl.SourceReport) : Summary := ⟨r.diagnostics, r.suggestions⟩

end Summary

/-- An artifact and what was found on the way to it. -/
structure Compilation where
  artifact : Artifact
  summary : Summary
deriving DecidableEq, Repr

/-- Whether a shader came out without an error. -/
def Compilation.succeeded (c : Compilation) : Bool := c.summary.isValid && c.artifact.error.isNone

/-- A graph to compile, with the options that belong to it. -/
structure Request where
  graph : Graph
  language : Language := .glsl
  optimize : Bool := true

structure Compiler where
  registry : Registry := .catalog
  options : Options := {}

/-- The errors among some diagnostics. -/
def errorsOf (ds : List Diagnostic) : List Diagnostic := ds.filter Diagnostic.isError

/-- The check of shader text on its own. -/
def summarizeSource (source : String) (parse : Glsl.Parser := .grammar) : Summary :=
  .ofReport (Glsl.checkSource parse source)

namespace Compiler

/-- Plans and writes a graph. -/
def generate (c : Compiler) (g : Graph) : Except (List Diagnostic) Shader :=
  match g.schedule c.registry c.options.optimize with
  | .error e => .error e.diagnostics
  | .ok schedule =>
    match g.emit c.registry c.options.entryPoint schedule with
    | .error e => .error [e.diagnostic]
    | .ok shader => .ok shader

/-- Writes a graph that is assumed to be valid. -/
def compile (c : Compiler) (g : Graph) : Artifact :=
  match c.generate g with
  | .ok shader => .ofShader shader
  | .error errors => .failed errors

/-- Writes a graph whose diagnostics hold no error, and hands the text to `check`. -/
def compileChecked (c : Compiler) (g : Graph) (found : List Diagnostic)
    (check : String → Glsl.SourceReport := Glsl.checkSource .grammar) : Artifact × Summary :=
  match c.generate g with
  | .error errors => (.failed errors, ⟨found ++ errors, []⟩)
  | .ok shader =>
    let report := check shader.code
    let errors := errorsOf report.diagnostics
    let artifact := if errors.isEmpty then .ofShader shader else .failed errors
    (artifact, ⟨found ++ report.diagnostics, report.suggestions⟩)

/-- Validates a graph, and compiles it if it has no errors. Nothing is written if `check` finds an
error in the text. The artifact repeats the warnings. -/
def compileAndValidate (c : Compiler) (g : Graph)
    (check : String → Glsl.SourceReport := Glsl.checkSource .grammar) : Compilation :=
  let found := g.validate c.registry
  let errors := errorsOf found
  let (artifact, summary) :=
    if errors.isEmpty then c.compileChecked g found check else (.failed errors, ⟨found, []⟩)
  ⟨{ artifact with warnings := summary.warnings }, summary⟩

/-- Compiles a request under its own language and optimization. -/
def respond (c : Compiler) (r : Request)
    (check : String → Glsl.SourceReport := Glsl.checkSource .grammar) : Compilation :=
  let options := { c.options with language := r.language, optimize := r.optimize }
  { c with options := options }.compileAndValidate r.graph check

end Compiler

end NodeShader
