import NodeShader.Dictionary
import NodeShader.Parameter.Basic

/-!
# Graphs

A graph is a list of nodes and a list of edges from output ports to input ports. It is
plain data: nothing here looks at types or ports. The operations that build a graph change it in
place (`Editor`). They keep node ids distinct and both ends of every edge present.
-/

namespace NodeShader

/-- A node: its id, the id of its type, and values for some of its parameters. -/
structure Node where
  id : String
  typeId : String
  parameters : Dictionary ParameterValue := ∅
deriving DecidableEq

/-- An edge. A missing port means the first one. -/
structure Edge where
  id : String
  source : String
  sourcePort : Option String
  target : String
  targetPort : Option String
deriving DecidableEq, Repr

/-- Whether the edge begins or ends at a node. -/
def Edge.involves (e : Edge) (id : String) : Bool := e.source == id || e.target == id

structure Graph where
  nodes : List Node := []
  edges : List Edge := []
deriving DecidableEq

/-- Why a graph cannot be changed. -/
inductive GraphError where
  | duplicateNode (id : String)
  | nodeNotFound (id : String)
deriving DecidableEq, Repr

def GraphError.message : GraphError → String
  | duplicateNode id => s!"duplicate node id '{id}'"
  | nodeNotFound id => s!"node not found: '{id}'"

namespace Graph

def empty : Graph := ⟨[], []⟩

/-- The first node of this id. -/
def node? (g : Graph) (id : String) : Option Node := g.nodes.find? (fun n => n.id == id)

/-- The edges that end at a node. -/
def incoming (g : Graph) (id : String) : List Edge := g.edges.filter (fun e => e.target == id)

/-- The edges that begin at a node. -/
def outgoing (g : Graph) (id : String) : List Edge := g.edges.filter (fun e => e.source == id)

end Graph

/-- An operation on a graph that changes it in place. -/
abbrev Editor (α : Type) := StateM Graph α

namespace Editor

/-- What an operation returns, and what it makes of the graph. -/
def run {α : Type} (op : Editor α) (g : Graph) : α × Graph := Id.run (StateT.run op g)

/-- Adds a node at the end. -/
def addNode (n : Node) : Editor (Except GraphError Unit) := do
  if ((← get).node? n.id).isSome then
    return .error (.duplicateNode n.id)
  modify fun g => { g with nodes := g.nodes ++ [n] }
  return .ok ()

/-- Removes every edge that touches a node, then the first node of this id. -/
def removeNode (id : String) : Editor (Option Node) := do
  match (← get).nodes.findIdx? (fun n => n.id == id) with
  | none => return none
  | some index =>
    modify fun g => { g with edges := g.edges.filter (fun e => !e.involves id) }
    let removed := (← get).nodes[index]?
    modify fun g => { g with nodes := g.nodes.eraseIdx index }
    return removed

/-- Adds an edge under a new id, provided both its nodes exist. -/
def connect (edgeId source sourcePort target targetPort : String) :
    Editor (Except GraphError String) := do
  for id in [source, target] do
    if ((← get).node? id).isNone then
      return .error (.nodeNotFound id)
  let e : Edge := ⟨edgeId, source, sourcePort, target, targetPort⟩
  modify fun g => { g with edges := g.edges ++ [e] }
  return .ok e.id

/-- Removes the first edge of this id. -/
def disconnect (edgeId : String) : Editor (Option Edge) := do
  match (← get).edges.findIdx? (fun e => e.id == edgeId) with
  | none => return none
  | some index =>
    let removed := (← get).edges[index]?
    modify fun g => { g with edges := g.edges.eraseIdx index }
    return removed

end Editor

namespace Graph

/-- The graph with a node more. -/
def addNode (g : Graph) (n : Node) : Except GraphError Graph :=
  let (reply, g') := (Editor.addNode n).run g
  reply.map fun _ => g'

/-- A node, and the graph without it. -/
def removeNode? (g : Graph) (id : String) : Option (Node × Graph) :=
  let (reply, g') := (Editor.removeNode id).run g
  reply.map fun n => (n, g')

/-- The graph with an edge more. -/
def connect (g : Graph) (edgeId source sourcePort target targetPort : String) :
    Except GraphError Graph :=
  let (reply, g') := (Editor.connect edgeId source sourcePort target targetPort).run g
  reply.map fun _ => g'

/-- An edge, and the graph without it. -/
def disconnect? (g : Graph) (edgeId : String) : Option (Edge × Graph) :=
  let (reply, g') := (Editor.disconnect edgeId).run g
  reply.map fun e => (e, g')

end Graph

end NodeShader
