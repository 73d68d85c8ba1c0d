import NodeShader.Graph.Adjacency

/-!
# Ordering nodes

`drain` takes nodes that wait for nothing, the least id first, until none is left or all
that are left wait for one another.
-/

namespace NodeShader

/-- A node that is not placed yet, and how many of its predecessors are not placed yet. -/
structure Waiting where
  id : String
  count : Nat
deriving DecidableEq, Repr

/-- Notes that a predecessor of the given nodes is placed. -/
def discharge (successors : List String) (waiting : List Waiting) : List Waiting :=
  waiting.map fun w => if successors.contains w.id then ⟨w.id, w.count - 1⟩ else w

/-- Whether a node waits for nothing. -/
def Waiting.isReady (w : Waiting) : Bool := w.count == 0

theorem length_discharge_eraseP_lt (successors : List String) {waiting : List Waiting} {w : Waiting}
    (h : waiting.find? Waiting.isReady = some w) :
    (discharge successors (waiting.eraseP Waiting.isReady)).length < waiting.length := by
  have member := List.mem_of_find?_eq_some h
  have shorter := List.length_eraseP_of_mem member (List.find?_some h)
  have := List.length_pos_of_mem member
  simp only [discharge, List.length_map]
  omega

/-- Places the first ready node until there is none: the nodes placed, in order, and the
nodes left. -/
def drain (successorsOf : String → List String) (waiting : List Waiting) :
    List String × List String :=
  match h : waiting.find? Waiting.isReady with
  | none => ([], waiting.map Waiting.id)
  | some w =>
    have := length_discharge_eraseP_lt (successorsOf w.id) h
    let (placed, left) :=
      drain successorsOf (discharge (successorsOf w.id) (waiting.eraseP Waiting.isReady))
    (w.id :: placed, left)
termination_by waiting.length

namespace Adjacency

/-- All nodes, in ascending order of their ids, each with the number of its predecessors. -/
def waiting (a : Adjacency) : List Waiting :=
  a.predecessors.map fun (id, predecessors) => ⟨id, predecessors.length⟩

end Adjacency

end NodeShader
