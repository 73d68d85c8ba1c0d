import NodeShader.Graph.Adjacency

/-!
# Reachability

`reachable` follows a relation between nodes inside a pool of nodes; `groups` splits a
list of nodes by such a relation.
-/

namespace NodeShader

/-- The items with a property, and the items without it. -/
def separate (p : String → Bool) (ids : List String) : List String × List String :=
  (ids.filter p, ids.filter (fun id => !p id))

theorem length_separate (p : String → Bool) (ids : List String) :
    (separate p ids).1.length + (separate p ids).2.length = ids.length := by
  induction ids with
  | nil => rfl
  | cons id ids ih => cases h : p id <;> simp_all [separate] <;> omega

/-- The nodes of the frontier and all that can be reached from them by steps to nodes of the
pool. -/
def reachable (next : String → List String) (pool : List String) :
    (frontier : List String) → List String
  | [] => []
  | id :: frontier =>
    let parts := separate (next id).contains pool
    id :: reachable next parts.2 (parts.1 ++ frontier)
termination_by frontier => pool.length + frontier.length
decreasing_by
  have := length_separate (next id).contains pool
  simp only [List.length_append, List.length_cons]
  omega

/-- Splits nodes into groups: the first node with the rest of its group, then the others.
`members id rest` lists the nodes of the group of `id` in `rest`. -/
def groups (members : String → List String → List String) : List String → List (List String)
  | [] => []
  | id :: rest =>
    let parts := separate (members id rest).contains rest
    (id :: parts.1) :: groups members parts.2
termination_by ids => ids.length
decreasing_by
  have := length_separate (members id rest).contains rest
  simp only [List.length_cons]
  omega

namespace Adjacency

/-- The nodes with a path to a node, that node included, ascending. -/
def reaching (a : Adjacency) (target : String) : List String :=
  let found := reachable a.predecessorsOf (a.nodes.filter (· != target)) [target]
  a.nodes.filter found.contains

/-- The components of some nodes under edges of either direction between them. Each is
ascending, and they are ordered by their first ids. -/
def connectedGroups (a : Adjacency) (members : List String) : List (List String) :=
  let neighbours (id : String) := a.predecessorsOf id ++ a.successorsOf id
  groups (fun id rest => reachable neighbours rest [id]) members

end Adjacency

end NodeShader
