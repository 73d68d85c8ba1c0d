import NodeShader.Diagnostic
import NodeShader.Literal
import NodeShader.Parameter.Basic
import NodeShader.Template

/-!
# Shaders

What is written for a graph: the shader text, the uniforms that its host supplies, the
helper functions in it, and the statements of its nodes. `EmissionError` says why nothing
can be written.
-/

namespace NodeShader

/-- The convention for the entry function: `main` writes `gl_FragColor`, and `mainImage`
takes the fragment's color and coordinate as arguments. -/
inductive EntryPoint where
  | main
  | mainImage
deriving DecidableEq, Repr

namespace EntryPoint

def name : EntryPoint → String
  | main => "main"
  | mainImage => "main-image"

/-- The entry point of this name; `mainImage` has a second spelling. -/
def ofName? (name : String) : Option EntryPoint :=
  if name = "main" then some main
  else if name = "main-image" ∨ name = "mainImage" then some mainImage
  else none

/-- The message for a name that no entry point has. -/
def unknownMessage (name : String) : String :=
  s!"unknown entry point '{name}' (expected main or main-image)"

end EntryPoint

/-- A uniform, with its initial value if the graph gives one. -/
structure Uniform where
  name : String
  type : DataType
  value : Option Literal := none
deriving DecidableEq, Repr

/-- The uniforms that every shader declares. -/
def builtinUniforms : List Uniform :=
  [⟨"iTime", .float, none⟩, ⟨"iResolution", .vec2, none⟩, ⟨"iMouse", .vec2, none⟩]

/-- The text of one node, and the variables that it declares. -/
structure Statement where
  node : String
  declares : List String
  text : String
deriving DecidableEq, Repr

structure Shader where
  code : String
  uniforms : List Uniform
  functions : List String
  statements : List Statement
deriving DecidableEq, Repr

/-- Why a graph cannot be written. The last two are faults of the registry. -/
inductive EmissionError where
  | nodeNotFound (node : String)
  | unknownNodeType (node typeId : String)
  | unresolvedEdge (node : String)
  | missingInput (node port : String)
  | inputAlreadyConnected (node port : String)
  | parameter (node name : String) (cause : ParameterError)
  | template (node typeId : String) (cause : TemplateError)
  | unknownHelper (owner helper : String)
deriving DecidableEq, Repr

namespace EmissionError

def message : EmissionError → String
  | nodeNotFound node => s!"node '{node}' is not in the graph"
  | unknownNodeType node typeId => s!"node '{node}' has unknown type '{typeId}'"
  | unresolvedEdge node => s!"node '{node}': edge does not resolve to a declared port"
  | missingInput node port => s!"node '{node}' port '{port}': unconnected input"
  | inputAlreadyConnected node port => s!"node '{node}' port '{port}': input port already connected"
  | parameter node name cause => s!"node '{node}': invalid parameter '{name}': {cause.message}"
  | template node typeId cause =>
    s!"node '{node}': template of type '{typeId}' failed: {cause.message}"
  | unknownHelper owner helper => s!"'{owner}' requires unknown helper '{helper}'"

/-- Whether the registry is at fault and not the graph. -/
def isInternal : EmissionError → Bool
  | template .. | unknownHelper .. => true
  | _ => false

/-- The diagnostic for a reader; the causes of internal errors are not shown. -/
def diagnostic : EmissionError → Diagnostic
  | nodeNotFound node => ⟨.unknownNode, s!"unknown node '{node}'", none, none⟩
  | unknownNodeType node typeId =>
    ⟨.unknownNodeType, s!"unknown node type '{typeId}'", some node, none⟩
  | unresolvedEdge node =>
    ⟨.unknownPort, "edge does not resolve to a declared port", some node, none⟩
  | missingInput node port => ⟨.unconnectedInput, "unconnected input", some node, some port⟩
  | inputAlreadyConnected node port =>
    ⟨.inputAlreadyConnected, "input port already connected", some node, some port⟩
  | parameter node name cause =>
    ⟨.invalidParameter, s!"invalid parameter '{name}': {cause.message}", some node, none⟩
  | template node typeId _ =>
    ⟨.internal, s!"internal error: node type '{typeId}' could not be emitted", some node, none⟩
  | unknownHelper owner _ =>
    ⟨.internal, s!"internal error: '{owner}' could not be emitted", none, none⟩

end EmissionError

end NodeShader
