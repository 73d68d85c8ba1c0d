import NodeShader.Parameter.Basic
import NodeShader.Port
import NodeShader.Template

/-!
# Node types

A node type declares the ports and parameters of its nodes and the template of the
shader text that such a node contributes.
-/

namespace NodeShader

/-- What a node type is for. The nodes of category `output` end a graph. -/
inductive Category where
  | input
  | operation
  | vector
  | color
  | utility
  | texture
  | output
deriving DecidableEq, Repr

namespace Category

def all : List Category := [input, operation, vector, color, utility, texture, output]

def name : Category → String
  | input => "input"
  | operation => "operation"
  | vector => "vector"
  | color => "color"
  | utility => "utility"
  | texture => "texture"
  | output => "output"

/-- The category of this name. -/
def ofName? (name : String) : Option Category := all.find? (fun c => c.name == name)

/-- The message for a name that no category has. -/
def unknownMessage (name : String) : String := s!"unknown node category '{name}'"

end Category

/-- A type of node. -/
structure NodeType where
  id : String
  label : String
  category : Category
  description : String := ""
  inputs : List Port := []
  outputs : List Port := []
  parameters : List Parameter := []
  template : String := ""
  helpers : List String := []
deriving DecidableEq, Repr

namespace NodeType

/-- The parameter of this name; the first of several. -/
def parameter? (t : NodeType) (name : String) : Option Parameter :=
  t.parameters.find? (fun p => p.name == name)

/-- Whether the type declares what a segment of its template names. -/
def declares (t : NodeType) : Segment → Bool
  | .input name => t.inputs.any (fun p => p.name == name)
  | .output name => t.outputs.any (fun p => p.name == name)
  | .parameter name => (t.parameter? name).isSome
  | .text _ | .temporary _ | .result => true

/-- The template, if every placeholder in it is declared. -/
def parseTemplate (t : NodeType) : Except TemplateError Template := do
  let template ← Template.parse t.template
  match template.segments.find? (fun s => !t.declares s) with
  | some segment => throw (.unbound segment)
  | none => return template

end NodeType

end NodeShader
