import NodeShader.Graph.Adjacency

/-!
# Cycles

`Adjacency.cyclesAmong` lists the cycles among some nodes: their strongly connected components that
hold a cycle. The components are found by Tarjan's algorithm in one search through the graph
(`ComponentSearch.run`). The search numbers vertices in the order in which it comes to them and
keeps them on a stack. The lowlink of a vertex is the least number on the stack that the search has
met from it on. A vertex whose lowlink is its own number is the first of its component, which is
then on top of the stack.
-/

namespace NodeShader

/-- A search for the strongly connected components of a graph with `n` vertices. -/
structure ComponentSearch (n : Nat) where
  nextIndex : Nat := 0
  indices : Vector (Option Nat) n := .replicate n none
  lowlinks : Vector Nat n := .replicate n 0
  onStack : Vector Bool n := .replicate n false
  stack : List (Fin n) := []
  components : List (List (Fin n)) := []
deriving DecidableEq, Repr

namespace ComponentSearch

variable {n : Nat}

/-- Numbers a vertex and puts it on the stack. -/
def enter (s : ComponentSearch n) (v : Fin n) : ComponentSearch n :=
  { s with
    nextIndex := s.nextIndex + 1
    indices := s.indices.set v (some s.nextIndex) v.isLt
    lowlinks := s.lowlinks.set v s.nextIndex v.isLt
    onStack := s.onStack.set v true v.isLt
    stack := v :: s.stack }

/-- Lowers the lowlink of a vertex to an index, unless it is less already. -/
def lower (s : ComponentSearch n) (v : Fin n) (index : Nat) : ComponentSearch n :=
  { s with lowlinks := s.lowlinks.set v (min (s.lowlinks.get v) index) v.isLt }

/-- What is taken off a stack down to a vertex, and what is left. -/
def popTo (v : Fin n) : List (Fin n) → List (Fin n) × List (Fin n)
  | [] => ([], [])
  | member :: rest =>
    if member = v then ([member], rest)
    else
      let (taken, left) := popTo v rest
      (member :: taken, left)

/-- Takes a component off the stack, down to its first vertex. -/
def close (s : ComponentSearch n) (v : Fin n) : ComponentSearch n :=
  let (component, left) := popTo v s.stack
  { s with
    onStack := component.foldl (fun marks (member : Fin n) => marks.set member false member.isLt) s.onStack
    stack := left
    components := s.components ++ [component] }

/-- Closes the component of a vertex whose edges have been followed, if it is the first of it. -/
def leave (s : ComponentSearch n) (v : Fin n) : ComponentSearch n :=
  if some (s.lowlinks.get v) = s.indices.get v then s.close v else s

/-- Follows an edge from `v` to `next`, which is visited first if it has no number. -/
def follow (visit : Fin n → ComponentSearch n → ComponentSearch n) (v : Fin n)
    (s : ComponentSearch n) (next : Fin n) : ComponentSearch n :=
  match s.indices.get next with
  | none =>
    let s := visit next s
    s.lower v (s.lowlinks.get next)
  | some index => if s.onStack.get next then s.lower v index else s

/-- Visits a vertex and whatever has no number yet and can be reached from it. The search descends
at most `depth` times, which is enough if no more vertices are without a number. -/
def visit (edges : Fin n → List (Fin n)) :
    (depth : Nat) → (v : Fin n) → (s : ComponentSearch n) → ComponentSearch n
  | 0, _, s => s
  | depth + 1, v, s => ((edges v).foldl (follow (visit edges depth) v) (s.enter v)).leave v

/-- Visits all vertices in turn. -/
def run (edges : Fin n → List (Fin n)) : ComponentSearch n :=
  (List.finRange n).foldl (fun s v => if (s.indices.get v).isNone then s.visit edges n v else s) {}

end ComponentSearch

/-- The members of a list in ascending order. -/
def sortAscending {α : Type} [LT α] [DecidableLT α] (l : List α) : List α :=
  l.mergeSort fun a b => !decide (b < a)

namespace Adjacency

/-- The edges between some nodes, by their positions. -/
def edgesAmong (a : Adjacency) (members : List String) (v : Fin members.length) :
    List (Fin members.length) :=
  (a.successorsOf (members.get v)).filterMap members.finIdxOf?

/-- Whether a component holds a cycle: it has several nodes, or its node feeds itself. -/
def isCyclic (a : Adjacency) (members : List String) : List (Fin members.length) → Bool
  | [only] => (a.successorsOf (members.get only)).contains (members.get only)
  | _ => true

/-- The cycles among some nodes: the components of nodes with paths in both directions, and
the nodes that feed themselves. Each is ascending, and they are in ascending order. -/
def cyclesAmong (a : Adjacency) (members : List String) : List (List String) :=
  let components := (ComponentSearch.run (a.edgesAmong members)).components
  sortAscending ((components.filter (a.isCyclic members)).map fun component =>
    sortAscending (component.map members.get))

end Adjacency

end NodeShader
