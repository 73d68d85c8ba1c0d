import Mathlib.Data.List.Nodup
import NodeShader.Connection
import NodeShader.Proofs.Adjacency
import NodeShader.Proofs.Failure
import NodeShader.Shader.Naming

/-!
# Connections

When an edge resolves, and to what (`Edge.resolve_eq_ok_iff`); and what is wrong with an
edge that does not (`Edge.resolve_error`).
-/

namespace NodeShader

namespace Graph

variable {r : Registry} {g : Graph} {id : String} {n : Node} {t : NodeType}

theorem node?_mem (h : g.node? id = some n) : n ∈ g.nodes := List.mem_of_find?_eq_some h

theorem node?_id (h : g.node? id = some n) : n.id = id := by
  simpa using List.find?_some h

theorem exists_node?_iff : (∃ n, g.node? id = some n) ↔ id ∈ g.ids := by
  rw [← Option.isSome_iff_exists, node?, List.find?_isSome, mem_ids]
  simp

theorem node?_eq_none_iff : g.node? id = none ↔ id ∉ g.ids := by
  rw [← exists_node?_iff, ← Option.not_isSome_iff_eq_none, Option.isSome_iff_exists]

/-- Where ids are distinct, every node is the first of its id. -/
theorem node?_of_nodup (hd : (g.nodes.map Node.id).Nodup) (hn : n ∈ g.nodes) :
    g.node? n.id = some n := by
  obtain ⟨m, hm⟩ := exists_node?_iff.mpr (mem_ids.mpr ⟨n, hn, rfl⟩)
  rw [hm, List.inj_on_of_nodup_map hd (node?_mem hm) hn (node?_id hm)]

theorem node?_eq_some_iff (hd : (g.nodes.map Node.id).Nodup) :
    g.node? id = some n ↔ n ∈ g.nodes ∧ n.id = id :=
  ⟨fun h => ⟨node?_mem h, node?_id h⟩, fun ⟨hn, hid⟩ => hid ▸ node?_of_nodup hd hn⟩

theorem typeOf?_eq_some_iff :
    g.typeOf? r id = some t ↔ ∃ n, g.node? id = some n ∧ r.type? n.typeId = some t := by
  rw [typeOf?]
  cases g.node? id <;> simp

theorem mem_ids_of_typeOf? (h : g.typeOf? r id = some t) : id ∈ g.ids := by
  obtain ⟨n, hn, -⟩ := typeOf?_eq_some_iff.mp h
  exact exists_node?_iff.mp ⟨n, hn⟩

theorem sortedEdges_perm (g : Graph) : g.sortedEdges.Perm g.edges := List.mergeSort_perm _ _

theorem sortedEdges_of_pairwise (h : g.edges.Pairwise fun a b => (Edge.compare a b).isLE = true) :
    g.sortedEdges = g.edges := List.mergeSort_of_pairwise h

theorem mem_sortedEdges {e : Edge} : e ∈ g.sortedEdges ↔ e ∈ g.edges :=
  g.sortedEdges_perm.mem_iff

end Graph

theorem Registry.type?_mem {r : Registry} {id : String} {t : NodeType}
    (h : r.type? id = some t) : t ∈ r.types := List.mem_of_find?_eq_some h

theorem endpoint_eq_ok_iff {r : Registry} {g : Graph} {id : String} {n : Node} {t : NodeType} :
    endpoint r g id = .ok (n, t) ↔ g.node? id = some n ∧ r.type? n.typeId = some t := by
  constructor
  · intro h
    rw [endpoint] at h
    split at h
    · cases h
    · rename_i hn
      split at h
      · cases h
      · rename_i ht
        cases h
        exact ⟨hn, ht⟩
  · rintro ⟨hn, ht⟩
    simp only [endpoint, hn, ht]

theorem endpoint_error {r : Registry} {g : Graph} {id : String} {p : ConnectionError}
    (h : endpoint r g id = .error p) :
    (g.node? id = none ∧ p = .unknownNode id) ∨
      ∃ n, g.node? id = some n ∧ r.type? n.typeId = none ∧ p = .unknownType := by
  rw [endpoint] at h
  split at h
  · rename_i hn
    cases h
    exact .inl ⟨hn, rfl⟩
  · rename_i n hn
    split at h
    · rename_i ht
      cases h
      exact .inr ⟨n, hn, ht, rfl⟩
    · cases h

/-! ## Ports -/

/-- A handle means a port that is there. -/
theorem resolveHandle_lt {ports : List Port} {d : Direction} {handle : Option String} {i : Nat}
    (h : resolveHandle ports d handle = some i) : i < ports.length := by
  unfold resolveHandle at h
  split at h
  · split at h
    · cases h
    · rename_i hne
      cases h
      exact List.length_pos_iff.mpr (by simpa using hne)
  · split at h
    · rename_i hfind
      cases h
      exact (List.findIdx?_eq_some_iff_findIdx_eq.mp hfind).1
    · split at h
      · split at h
        · cases h
          assumption
        · cases h
      · cases h

theorem endPort_eq_ok_iff {node : String} {ports : List Port} {d : Direction}
    {handle : Option String} {i : Nat} {port : Port} :
    endPort node ports d handle = .ok (i, port) ↔
      resolveHandle ports d handle = some i ∧ ports[i]? = some port := by
  constructor
  · intro h
    rw [endPort] at h
    split at h
    · cases h
    · rename_i hi
      split at h
      · cases h
      · rename_i hp
        cases h
        exact ⟨hi, hp⟩
  · rintro ⟨hi, hp⟩
    simp only [endPort, hi, hp]

theorem endPort_error {node : String} {ports : List Port} {d : Direction}
    {handle : Option String} {p : ConnectionError} (h : endPort node ports d handle = .error p) :
    resolveHandle ports d handle = none ∧ p = .unknownPort node d handle := by
  rw [endPort] at h
  split at h
  · rename_i hi
    cases h
    exact ⟨hi, rfl⟩
  · rename_i i hi
    rw [List.getElem?_eq_getElem (resolveHandle_lt hi)] at h
    cases h

/-! ## Edges -/

namespace Edge

variable {r : Registry} {g : Graph} {e : Edge}

/-- An edge resolves when both its nodes have known types, and its handles mean ports of
these types. -/
theorem resolve_eq_ok_iff {c : Connection} :
    e.resolve r g = .ok c ↔
      ∃ source target i, g.typeOf? r e.source = some source ∧ g.typeOf? r e.target = some target ∧
        resolveHandle source.outputs .output e.sourcePort = some i ∧
        source.outputs[i]? = some c.sourcePort ∧
        resolveHandle target.inputs .input e.targetPort = some c.targetIndex ∧
        target.inputs[c.targetIndex]? = some c.targetPort ∧
        c.source = e.source ∧ c.target = e.target := by
  simp only [resolve, bind_eq_ok, Prod.exists, endpoint_eq_ok_iff, endPort_eq_ok_iff,
    Graph.typeOf?_eq_some_iff]
  constructor
  · rintro ⟨n, source, ⟨hn, hs⟩, m, target, ⟨hm, ht⟩, i, p, ⟨hi, hp⟩, j, q, ⟨hj, hq⟩, h⟩
    cases h
    exact ⟨source, target, i, ⟨n, hn, hs⟩, ⟨m, hm, ht⟩, hi, hp, hj, hq, Graph.node?_id hn,
      Graph.node?_id hm⟩
  · rintro ⟨source, target, i, ⟨n, hn, hs⟩, ⟨m, hm, ht⟩, hi, hp, hj, hq, hcs, hct⟩
    refine ⟨n, source, ⟨hn, hs⟩, m, target, ⟨hm, ht⟩, i, _, ⟨hi, hp⟩, _, _, ⟨hj, hq⟩, ?_⟩
    rw [Graph.node?_id hn, Graph.node?_id hm, ← hcs, ← hct]
    rfl

/-- An edge that does not resolve has an end outside the graph, a node of unknown type, or a
handle that means no port. -/
theorem resolve_error {p : ConnectionError} (h : e.resolve r g = .error p) :
    (∃ id, (id = e.source ∨ id = e.target) ∧ id ∉ g.ids ∧ p = .unknownNode id) ∨
    (∃ id n, (id = e.source ∨ id = e.target ∧ ∃ t, g.typeOf? r e.source = some t) ∧
      g.node? id = some n ∧ r.type? n.typeId = none ∧ p = .unknownType) ∨
    ∃ id d handle, p = .unknownPort id d handle := by
  rcases bind_eq_error.mp h with h | ⟨⟨n, source⟩, hn, h⟩
  · rcases endpoint_error h with ⟨hnone, rfl⟩ | ⟨n, hn, ht, rfl⟩
    · exact .inl ⟨_, .inl rfl, Graph.node?_eq_none_iff.mp hnone, rfl⟩
    · exact .inr (.inl ⟨_, n, .inl rfl, hn, ht, rfl⟩)
  rcases bind_eq_error.mp h with h | ⟨⟨m, target⟩, hm, h⟩
  · rcases endpoint_error h with ⟨hnone, rfl⟩ | ⟨m, hm, ht, rfl⟩
    · exact .inl ⟨_, .inr rfl, Graph.node?_eq_none_iff.mp hnone, rfl⟩
    · have hs := Graph.typeOf?_eq_some_iff.mpr ⟨n, endpoint_eq_ok_iff.mp hn⟩
      exact .inr (.inl ⟨_, m, .inr ⟨rfl, source, hs⟩, hm, ht, rfl⟩)
  rcases bind_eq_error.mp h with h | ⟨_, _, h⟩
  · exact .inr (.inr ⟨_, _, _, (endPort_error h).2⟩)
  rcases bind_eq_error.mp h with h | ⟨_, _, h⟩
  · exact .inr (.inr ⟨_, _, _, (endPort_error h).2⟩)
  · cases h

end Edge

end NodeShader
