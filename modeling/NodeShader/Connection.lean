import NodeShader.Diagnostic
import NodeShader.Graph.Basic
import NodeShader.Registry

/-!
# Connections

A connection is an edge whose handles are resolved to ports of the types of its two nodes.
-/

namespace NodeShader

/-- An edge with both its ends resolved: the ids of its nodes, its output port, and its input
port with its position. -/
structure Connection where
  source : String
  sourcePort : Port
  target : String
  targetIndex : Nat
  targetPort : Port
deriving DecidableEq, Repr

/-- Why an edge is not a connection. -/
inductive ConnectionError where
  | unknownNode (id : String)
  | unknownType
  | unknownPort (node : String) (direction : Direction) (handle : Option String)
deriving DecidableEq, Repr

/-- The diagnostic of an edge that is no connection. A node of unknown type is reported by
itself and not again for each of its edges. -/
def ConnectionError.diagnostic? : ConnectionError → Option Diagnostic
  | unknownNode id => some ⟨.unknownNode, s!"edge references unknown node '{id}'", none, none⟩
  | unknownType => none
  | unknownPort node direction (some handle) =>
    some ⟨.unknownPort, s!"unknown {direction.stem} port", some node, some handle⟩
  | unknownPort node direction none =>
    some ⟨.unknownPort, s!"node has no {direction.stem} ports", some node, none⟩

/-- A node and its type. -/
def endpoint (r : Registry) (g : Graph) (id : String) :
    Except ConnectionError (Node × NodeType) :=
  match g.node? id with
  | none => .error (.unknownNode id)
  | some n =>
    match r.type? n.typeId with
    | none => .error .unknownType
    | some t => .ok (n, t)

/-- The port that a handle of an edge means, with its position. -/
def endPort (node : String) (ports : List Port) (direction : Direction) (handle : Option String) :
    Except ConnectionError (Nat × Port) :=
  match resolveHandle ports direction handle with
  | none => .error (.unknownPort node direction handle)
  | some i =>
    match ports[i]? with
    | none => .error (.unknownPort node direction handle)
    | some port => .ok (i, port)

/-- Resolves both ends of an edge. -/
def Edge.resolve (r : Registry) (g : Graph) (e : Edge) : Except ConnectionError Connection := do
  let (source, sourceType) ← endpoint r g e.source
  let (target, targetType) ← endpoint r g e.target
  let (_, sourcePort) ← endPort source.id sourceType.outputs .output e.sourcePort
  let (targetIndex, targetPort) ← endPort target.id targetType.inputs .input e.targetPort
  return ⟨source.id, sourcePort, target.id, targetIndex, targetPort⟩

/-- The order of edges by their ends: target, target port, source, source port. -/
def Edge.compare : Edge → Edge → Ordering :=
  compareLex (compareOn Edge.target) <|
    compareLex (compareOn Edge.targetPort) <|
      compareLex (compareOn Edge.source) (compareOn Edge.sourcePort)

/-- The edges ordered by their ends. -/
def Graph.sortedEdges (g : Graph) : List Edge :=
  g.edges.mergeSort (fun a b => (Edge.compare a b).isLE)

end NodeShader
