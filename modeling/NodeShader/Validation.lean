import NodeShader.Connection
import NodeShader.Parameter.Resolve
import NodeShader.Schedule.Basic

/-!
# Validation

`Graph.validate` checks a graph against a registry. Every check runs, nodes in the order
of their ids and edges in the order of their ends, so the diagnostics do not depend on the
order in which a graph lists its parts.
-/

namespace NodeShader

/-- The diagnostics of a graph without a schedule. -/
def ScheduleError.diagnostics : ScheduleError → List Diagnostic
  | cycle cycles =>
    cycles.map fun ids =>
      ⟨.cycle, "cycle between nodes: " ++ ", ".intercalate ids, none, none⟩
  | noOutputNode => [⟨.noOutputNode, "no output node", none, none⟩]

namespace Graph

/-- The first node of each id, in the order of the ids. -/
def distinctNodes (g : Graph) : List Node := g.ids.filterMap g.node?

/-- The nodes of known types, with their types. -/
def typedNodes (r : Registry) (g : Graph) : List (Node × NodeType) :=
  g.distinctNodes.filterMap fun n => (r.type? n.typeId).map fun t => (n, t)

/-- Ids that several nodes share. -/
def duplicateIds (g : Graph) : List Diagnostic :=
  g.ids.filterMap fun id =>
    let count := g.nodes.countP (fun n => n.id == id)
    if 1 < count then
      some ⟨.duplicateNodeId, s!"duplicate node id ({count} nodes)", some id, none⟩
    else
      none

/-- Nodes of types that the registry does not hold. -/
def unknownTypes (r : Registry) (g : Graph) : List Diagnostic :=
  g.distinctNodes.filterMap fun n =>
    if (r.type? n.typeId).isNone then
      some ⟨.unknownNodeType, s!"unknown node type '{n.typeId}'", some n.id, none⟩
    else
      none

/-- The edges that resolve, in the order of their ends. -/
def connections (r : Registry) (g : Graph) : List Connection :=
  g.sortedEdges.filterMap fun e => (e.resolve r g).toOption

/-- Edges that do not resolve. -/
def unresolvedEdges (r : Registry) (g : Graph) : List Diagnostic :=
  g.sortedEdges.filterMap fun e =>
    match e.resolve r g with
    | .ok _ => none
    | .error problem => problem.diagnostic?

/-- The connections into one input of one node. -/
def connectionsInto (connections : List Connection) (node : String) (index : Nat) :
    List Connection :=
  connections.filter fun c => c.target == node && c.targetIndex == index

/-- The connected inputs of all nodes, by node id and position, with their connections. -/
def connectedInputs (r : Registry) (g : Graph) : List (String × List Connection) :=
  let connections := g.connections r
  (g.typedNodes r).flatMap fun (n, t) =>
    (List.range t.inputs.length).filterMap fun index =>
      match connectionsInto connections n.id index with
      | [] => none
      | into => some (n.id, into)

/-- Required inputs without a connection. -/
def unconnectedInputs (r : Registry) (g : Graph) : List Diagnostic :=
  let connections := g.connections r
  (g.typedNodes r).flatMap fun (n, t) =>
    t.inputs.zipIdx.filterMap fun (port, index) =>
      if port.isRequired && (connectionsInto connections n.id index).isEmpty then
        some ⟨.unconnectedInput, "unconnected input", some n.id, some port.name⟩
      else
        none

/-- Inputs with several connections. -/
def crowdedInputs (r : Registry) (g : Graph) : List Diagnostic :=
  (g.connectedInputs r).filterMap fun (id, into) =>
    match into with
    | first :: _ :: _ =>
      some ⟨.inputAlreadyConnected, s!"input port already connected ({into.length} edges)", some id,
        some first.targetPort.name⟩
    | _ => none

/-- Connections between ports of types that do not join. -/
def typeMismatches (r : Registry) (g : Graph) : List Diagnostic :=
  (g.connectedInputs r).flatMap fun (id, into) =>
    into.filterMap fun c =>
      let expected := c.targetPort.type
      let got := c.sourcePort.type
      if got.connectsTo expected then
        none
      else
        some ⟨.typeMismatch, s!"type mismatch: expected {expected.name} got {got.name}", some id,
          some c.targetPort.name⟩

/-- What is wrong with a value for a parameter of this name. -/
def parameterProblem? (t : NodeType) (name : String) (value : ParameterValue) : Option String :=
  match t.parameter? name with
  | none => some s!"unknown parameter '{name}'"
  | some p =>
    match p.resolve value with
    | .ok _ => none
    | .error e => some s!"invalid parameter '{name}': {e.message}"

/-- Values that their parameters refuse. -/
def invalidParameters (r : Registry) (g : Graph) : List Diagnostic :=
  (g.typedNodes r).flatMap fun (n, t) =>
    n.parameters.entries.filterMap fun (name, value) =>
      (parameterProblem? t name value).map fun message =>
        ⟨.invalidParameter, message, some n.id, none⟩

/-- The number of output nodes. -/
def outputCount (r : Registry) (g : Graph) : Nat :=
  (g.typedNodes r).countP (fun (_, t) => t.category == .output)

/-- The warning about one group of unused nodes. -/
def unusedGroup : List String → Diagnostic
  | [id] => ⟨.unusedNodes, "unused node with no path to the output", some id, none⟩
  | ids =>
    ⟨.unusedNodes, "unused nodes with no path to the output: " ++ ", ".intercalate ids, none, none⟩

/-- Cycles, several output nodes and unused nodes. -/
def planProblems (r : Registry) (g : Graph) : List Diagnostic :=
  let count := g.outputCount r
  match g.schedule r true with
  | .ok s =>
    let several : List Diagnostic :=
      if 1 < count then
        [⟨.multipleOutputNodes, s!"{count} output nodes; only this one is used", some s.output, none⟩]
      else
        []
    several ++ s.unusedGroups.map unusedGroup
  | .error (.cycle cycles) =>
    let several : List Diagnostic :=
      if 1 < count then
        [⟨.multipleOutputNodes, s!"{count} output nodes; only the first in order is used", none,
          none⟩]
      else
        []
    several ++ (ScheduleError.cycle cycles).diagnostics
  | .error .noOutputNode => []

/-- Checks a graph against a registry. -/
def validate (r : Registry) (g : Graph) : List Diagnostic :=
  g.duplicateIds ++ g.unknownTypes r ++ g.unresolvedEdges r ++ g.unconnectedInputs r ++
    g.crowdedInputs r ++ g.typeMismatches r ++ g.invalidParameters r ++
    (if g.outputCount r = 0 then ScheduleError.noOutputNode.diagnostics else []) ++
    g.planProblems r

end Graph

end NodeShader
