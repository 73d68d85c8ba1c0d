import NodeShader.Registry
import NodeShader.Schedule.Cycles
import NodeShader.Schedule.Order
import NodeShader.Schedule.Reach

/-!
# Schedules

A schedule lists the nodes to write, dependencies first, and names the output node whose
statement writes the result. `Graph.schedule` plans a graph, or says why it has no plan.
-/

namespace NodeShader

/-- Why a graph has no schedule. Each cycle lists its nodes in ascending order. -/
inductive ScheduleError where
  | cycle (cycles : List (List String))
  | noOutputNode
deriving DecidableEq, Repr

def ScheduleError.message : ScheduleError → String
  | cycle cycles => s!"graph contains {cycles.length} cycle(s)"
  | noOutputNode => "no output node"

/-- A plan for writing a graph. The unused groups are the nodes without a path to the output,
joined by connectivity; other output nodes are not among them. -/
structure Schedule where
  order : List String
  output : String
  unusedGroups : List (List String)
deriving DecidableEq, Repr

/-- Whether a node type is of the output category. -/
def Registry.isOutputType (r : Registry) (typeId : String) : Bool :=
  match r.type? typeId with
  | some t => t.category == .output
  | none => false

namespace Graph

/-- All nodes, every node after the nodes that feed it, the least ids first. -/
def topologicalOrder (g : Graph) : Except ScheduleError (List String) :=
  let a := g.adjacency
  match drain a.successorsOf a.waiting with
  | (placed, []) => .ok placed
  | (_, left) => .error (.cycle (a.cyclesAmong left))

/-- The ids of nodes of an output type. -/
def outputIds (r : Registry) (g : Graph) : List String :=
  ascendingIds ((g.nodes.filter (fun n => r.isOutputType n.typeId)).map Node.id)

/-- Plans a graph. The first output node in order is the output. With `prune`, only nodes with
a path to it are kept; without, every node but the other output nodes. -/
def schedule (r : Registry) (g : Graph) (prune : Bool) : Except ScheduleError Schedule := do
  let fullOrder ← g.topologicalOrder
  let outputs := g.outputIds r
  match fullOrder.find? outputs.contains with
  | none => throw .noOutputNode
  | some output =>
    let a := g.adjacency
    let live := a.reaching output
    let unused := a.nodes.filter (fun id => !live.contains id && !outputs.contains id)
    let kept (id : String) : Bool :=
      if prune then live.contains id else id == output || !outputs.contains id
    return ⟨fullOrder.filter kept, output, a.connectedGroups unused⟩

end Graph

end NodeShader
