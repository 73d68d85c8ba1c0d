import NodeShader.Schedule.Basic
import NodeShader.Shader.Binding
import NodeShader.Shader.Functions
import NodeShader.Shader.Text

/-!
# Writing a scheduled graph

Each node of a schedule contributes a `Fragment`; `Graph.emit` puts the fragments together
and includes the helper functions that they need.
-/

namespace NodeShader

/-- What one node contributes. A node whose template is blank has no statement. -/
structure Fragment where
  typeId : String
  uniforms : List Uniform
  helpers : List String
  statement : Option Statement
deriving DecidableEq, Repr

/-- The variables of a node's outputs, by the names of its ports. -/
def bindOutputs (type : NodeType) (stem : String) : List (String × String) :=
  type.outputs.map fun port => (port.name, outputVariable stem port)

/-- The variables that a node declares. -/
def declaredNames (type : NodeType) (template : Template) (stem : String) : List String :=
  (type.outputs.filter (fun port => !port.uniform)).map (outputVariable stem) ++
    template.temporaries.map (temporaryName stem)

/-- What the placeholders of a node's template stand for. -/
def nodeBindings (type : NodeType) (stem : String) (inputs parameters : List (String × String)) :
    Bindings where
  inputs := .ofList inputs
  outputs := .ofList (bindOutputs type stem)
  parameters := .ofList parameters
  stem := stem
  result := resultVariable

/-- What a node of the schedule contributes. -/
def Graph.fragment (r : Registry) (g : Graph) (stems : Stems) (id : String) :
    Except EmissionError Fragment := do
  let some node := g.node? id | throw (.nodeNotFound id)
  let some type := r.type? node.typeId | throw (.unknownNodeType node.id node.typeId)
  let template ← type.parseTemplate.mapError (.template id type.id)
  let stem := stems.get id
  let uniforms ← nodeUniforms node type stem
  let inputs ← bindInputs r g stems id type
  let parameters ← bindParameters node type
  if template.isBlank then
    return ⟨type.id, uniforms, type.helpers, none⟩
  let bindings := nodeBindings type stem inputs parameters
  let text ← (template.render bindings).mapError (.template id type.id)
  return ⟨type.id, uniforms, type.helpers, some ⟨id, declaredNames type template stem, text⟩⟩

/-- The helpers that fragments need, in the order of their names, each with the type of the
first fragment that needs it. -/
def neededHelpers (fragments : List Fragment) : List (String × String) :=
  let needs := fragments.flatMap fun f => f.helpers.map fun helper => (helper, f.typeId)
  (Dictionary.ofList needs.reverse).entries

/-- Writes the nodes of a schedule. -/
def Graph.emit (r : Registry) (entry : EntryPoint) (g : Graph) (s : Schedule) :
    Except EmissionError Shader := do
  let stems := g.stems r
  let fragments ← s.order.mapM (g.fragment r stems)
  let uniforms := builtinUniforms ++ fragments.flatMap Fragment.uniforms
  let statements := fragments.filterMap Fragment.statement
  let functions ← r.helpersFor (neededHelpers fragments)
  return ⟨shaderText r entry uniforms functions statements, uniforms, functions, statements⟩

end NodeShader
