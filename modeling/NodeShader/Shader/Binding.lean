import NodeShader.Connection
import NodeShader.Parameter.Resolve
import NodeShader.Shader.Basic
import NodeShader.Shader.Naming

/-!
# Binding inputs and parameters

What the placeholders of a node's template stand for: `bindInputs` gives each input the
variable that is connected to it or its default, and `bindParameters` gives each parameter
its literal.
-/

namespace NodeShader

/-- The error for an edge into a node that does not resolve. -/
def ConnectionError.emissionError (node : String) : ConnectionError → EmissionError
  | unknownNode missing => .nodeNotFound missing
  | unknownType | unknownPort .. => .unresolvedEdge node

/-- The variables that the edges into a node bring, with the positions of their inputs. -/
def incomingVariables (r : Registry) (g : Graph) (stems : Stems) (node : String) :
    Except EmissionError (List (Nat × String)) :=
  (g.sortedEdges.filter (fun e => e.target == node)).mapM fun e =>
    match e.resolve r g with
    | .error problem => .error (problem.emissionError node)
    | .ok c => .ok (c.targetIndex, outputVariable (stems.get c.source) c.sourcePort)

/-- The expression for an input: the one variable that is connected to it, or its default. -/
def inputExpression (node : String) (port : Port) (sources : List String) :
    Except EmissionError String :=
  match sources with
  | [name] => .ok name
  | _ :: _ :: _ => .error (.inputAlreadyConnected node port.name)
  | [] =>
    match port.default with
    | some literal => .ok literal.toGlsl
    | none => .error (.missingInput node port.name)

/-- The expressions for the inputs of a node, by the names of its ports. -/
def bindInputs (r : Registry) (g : Graph) (stems : Stems) (node : String) (type : NodeType) :
    Except EmissionError (List (String × String)) := do
  let incoming ← incomingVariables r g stems node
  type.inputs.zipIdx.mapM fun (port, index) => do
    let sources := (incoming.filter (fun v => v.1 == index)).map Prod.snd
    return (port.name, ← inputExpression node port sources)

/-- The literal of a parameter: the node's value for it, or its default. -/
def parameterLiteral (node : Node) (p : Parameter) : Except EmissionError Literal :=
  match node.parameters.get? p.name with
  | none => .ok p.default
  | some value =>
    match p.resolve value with
    | .ok literal => .ok literal
    | .error cause => .error (.parameter node.id p.name cause)

/-- The literals of a node's parameters in shader text, by their names. -/
def bindParameters (node : Node) (type : NodeType) :
    Except EmissionError (List (String × String)) :=
  type.parameters.mapM fun p => do
    return (p.name, (← parameterLiteral node p).toGlsl)

/-- The initial value of a uniform output: the parameter of the same name, if there is one. -/
def uniformValue (node : Node) (type : NodeType) (name : String) :
    Except EmissionError (Option Literal) :=
  match type.parameter? name with
  | none => .ok none
  | some p => do return some (← parameterLiteral node p)

/-- The uniforms that a node's outputs bring. -/
def nodeUniforms (node : Node) (type : NodeType) (stem : String) :
    Except EmissionError (List Uniform) :=
  (type.outputs.filter Port.uniform).mapM fun port => do
    return ⟨outputVariable stem port, port.type, ← uniformValue node type port.name⟩

end NodeShader
