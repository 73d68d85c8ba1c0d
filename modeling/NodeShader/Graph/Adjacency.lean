import NodeShader.Graph.Basic

/-!
# Adjacency

Which nodes of a graph feed which, without regard to ports or to the order in which nodes
and edges are listed. Edges with an end outside the graph are left out and parallel edges
count once.
-/

namespace NodeShader

/-- Puts an id in its place among ascending ids, unless it is there already. -/
def insertId (id : String) : List String → List String
  | [] => [id]
  | other :: rest =>
    if id < other then id :: other :: rest
    else if id = other then other :: rest
    else other :: insertId id rest

/-- The ids of a list in ascending order, each once. -/
def ascendingIds (ids : List String) : List String := ids.foldr insertId []

/-- For every node, the nodes that feed it and the nodes that it feeds; all ascending. -/
structure Adjacency where
  predecessors : List (String × List String)
  successors : List (String × List String)
deriving DecidableEq, Repr

namespace Adjacency

/-- The ids of all nodes. -/
def nodes (a : Adjacency) : List String := a.successors.map Prod.fst

/-- The nodes that feed a node. -/
def predecessorsOf (a : Adjacency) (id : String) : List String :=
  (a.predecessors.lookup id).getD []

/-- The nodes that a node feeds. -/
def successorsOf (a : Adjacency) (id : String) : List String := (a.successors.lookup id).getD []

end Adjacency

namespace Graph

/-- The ids of all nodes, ascending, each once. -/
def ids (g : Graph) : List String := ascendingIds (g.nodes.map Node.id)

/-- The ends of the edges that join two nodes of the graph. -/
def links (g : Graph) : List (String × String) :=
  (g.edges.filter (fun e => g.ids.contains e.source && g.ids.contains e.target)).map
    (fun e => (e.source, e.target))

def adjacency (g : Graph) : Adjacency :=
  let ids := g.ids
  let links := g.links
  { predecessors := ids.map fun id =>
      (id, ascendingIds ((links.filter (fun l => l.2 == id)).map Prod.fst))
    successors := ids.map fun id =>
      (id, ascendingIds ((links.filter (fun l => l.1 == id)).map Prod.snd)) }

end Graph

end NodeShader
