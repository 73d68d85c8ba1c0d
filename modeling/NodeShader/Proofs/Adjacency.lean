import Mathlib.Data.List.Basic
import NodeShader.Graph.Adjacency

/-!
# Adjacency as a relation

`Graph.Feeds` says that an edge leads from one node of a graph to another. The two
tables of an adjacency hold this relation and its converse
(`Graph.mem_successorsOf`, `Graph.mem_predecessorsOf`). Ids are kept in ascending
lists, which depend on their members only (`ascendingIds_congr`).
-/

namespace NodeShader

/-! ## Ascending ids -/

theorem mem_insertId {id x : String} {ids : List String} :
    x ∈ insertId id ids ↔ x = id ∨ x ∈ ids := by
  induction ids with
  | nil => simp [insertId]
  | cons other rest ih =>
    simp only [insertId]
    split
    · simp
    · split
      · rename_i h
        simp [h]
      · rw [List.mem_cons, ih, List.mem_cons]
        exact or_left_comm

theorem pairwise_insertId {id : String} {ids : List String} (h : ids.Pairwise (· < ·)) :
    (insertId id ids).Pairwise (· < ·) := by
  induction ids with
  | nil => simp [insertId]
  | cons other rest ih =>
    obtain ⟨first, others⟩ := List.pairwise_cons.mp h
    simp only [insertId]
    split
    next below =>
      refine List.pairwise_cons.mpr ⟨fun x hx => ?_, h⟩
      rcases List.mem_cons.mp hx with rfl | hx
      · exact below
      · exact String.lt_trans below (first x hx)
    next notBelow =>
      split
      · exact h
      next other =>
        refine List.pairwise_cons.mpr ⟨fun x hx => ?_, ih others⟩
        rcases mem_insertId.mp hx with rfl | hx
        · exact Std.lt_of_le_of_ne (String.not_lt.mp notBelow) (Ne.symm other)
        · exact first x hx

@[simp] theorem mem_ascendingIds {x : String} {ids : List String} :
    x ∈ ascendingIds ids ↔ x ∈ ids := by
  induction ids with
  | nil => simp [ascendingIds]
  | cons id rest ih =>
    rw [ascendingIds, List.foldr_cons, mem_insertId, List.mem_cons]
    exact or_congr_right ih

theorem pairwise_ascendingIds (ids : List String) : (ascendingIds ids).Pairwise (· < ·) := by
  induction ids with
  | nil => exact List.Pairwise.nil
  | cons id rest ih => exact pairwise_insertId ih

theorem nodup_of_pairwise_lt {ids : List String} (h : ids.Pairwise (· < ·)) : ids.Nodup := by
  refine h.imp ?_
  rintro a b hlt rfl
  exact String.lt_irrefl a hlt

theorem nodup_ascendingIds (ids : List String) : (ascendingIds ids).Nodup :=
  nodup_of_pairwise_lt (pairwise_ascendingIds ids)

/-- Ascending lists of the same ids are equal. -/
theorem eq_of_ascending {xs ys : List String} (hx : xs.Pairwise (· < ·))
    (hy : ys.Pairwise (· < ·)) (h : ∀ x, x ∈ xs ↔ x ∈ ys) : xs = ys := by
  have hp : xs.Perm ys :=
    (List.perm_ext_iff_of_nodup (nodup_of_pairwise_lt hx) (nodup_of_pairwise_lt hy)).mpr h
  exact hp.eq_of_pairwise (fun a b _ _ hab hba => (String.lt_asymm hab hba).elim) hx hy

theorem ascendingIds_congr {xs ys : List String} (h : ∀ x, x ∈ xs ↔ x ∈ ys) :
    ascendingIds xs = ascendingIds ys :=
  eq_of_ascending (pairwise_ascendingIds xs) (pairwise_ascendingIds ys) (by simpa using h)

/-! ## The relation of a graph -/

theorem lookup_map_pair {α : Type} (f : String → α) (id : String) (ids : List String) :
    (ids.map fun x => (x, f x)).lookup id = if id ∈ ids then some (f id) else none := by
  induction ids with
  | nil => rfl
  | cons other rest ih =>
    rw [List.map_cons, List.lookup_cons, ih]
    by_cases h : id = other
    · simp [h]
    · simp [h, beq_eq_false_iff_ne.mpr h]

namespace Graph

variable {g : Graph} {s t id : String}

/-- An edge leads from the node `s` of the graph to its node `t`. -/
def Feeds (g : Graph) (s t : String) : Prop :=
  s ∈ g.ids ∧ t ∈ g.ids ∧ ∃ e ∈ g.edges, e.source = s ∧ e.target = t

theorem mem_ids : id ∈ g.ids ↔ ∃ n ∈ g.nodes, n.id = id := by
  simp [ids]

theorem nodup_ids (g : Graph) : g.ids.Nodup := nodup_ascendingIds _

theorem mem_links : (s, t) ∈ g.links ↔ g.Feeds s t := by
  simp only [links, Feeds, List.mem_map, List.mem_filter, Bool.and_eq_true, List.contains_iff_mem,
    Prod.mk.injEq]
  constructor
  · rintro ⟨e, ⟨he, hs, ht⟩, rfl, rfl⟩
    exact ⟨hs, ht, e, he, rfl, rfl⟩
  · rintro ⟨hs, ht, e, he, rfl, rfl⟩
    exact ⟨e, ⟨he, hs, ht⟩, rfl, rfl⟩

@[simp] theorem nodes_adjacency (g : Graph) : g.adjacency.nodes = g.ids := by
  simp only [Adjacency.nodes, adjacency, List.map_map]
  exact List.map_id _

theorem mem_successorsOf : t ∈ g.adjacency.successorsOf s ↔ g.Feeds s t := by
  simp only [Adjacency.successorsOf, adjacency, lookup_map_pair]
  split
  · simp only [Option.getD_some, mem_ascendingIds, List.mem_map, List.mem_filter, beq_iff_eq]
    constructor
    · rintro ⟨⟨a, b⟩, ⟨hl, rfl⟩, rfl⟩
      exact mem_links.mp hl
    · exact fun h => ⟨(s, t), ⟨mem_links.mpr h, rfl⟩, rfl⟩
  · rename_i hs
    simp only [Option.getD_none, List.not_mem_nil, false_iff]
    exact fun h => hs h.1

theorem mem_predecessorsOf : s ∈ g.adjacency.predecessorsOf t ↔ g.Feeds s t := by
  simp only [Adjacency.predecessorsOf, adjacency, lookup_map_pair]
  split
  · simp only [Option.getD_some, mem_ascendingIds, List.mem_map, List.mem_filter, beq_iff_eq]
    constructor
    · rintro ⟨⟨a, b⟩, ⟨hl, rfl⟩, rfl⟩
      exact mem_links.mp hl
    · exact fun h => ⟨(s, t), ⟨mem_links.mpr h, rfl⟩, rfl⟩
  · rename_i ht
    simp only [Option.getD_none, List.not_mem_nil, false_iff]
    exact fun h => ht h.2.1

theorem nodup_predecessorsOf (g : Graph) (id : String) :
    (g.adjacency.predecessorsOf id).Nodup := by
  simp only [Adjacency.predecessorsOf, adjacency, lookup_map_pair]
  split
  · exact nodup_ascendingIds _
  · exact List.nodup_nil

theorem nodup_successorsOf (g : Graph) (id : String) :
    (g.adjacency.successorsOf id).Nodup := by
  simp only [Adjacency.successorsOf, adjacency, lookup_map_pair]
  split
  · exact nodup_ascendingIds _
  · exact List.nodup_nil

/-- Every node waits for as many nodes as feed it. -/
theorem predecessors_adjacency (g : Graph) :
    g.adjacency.predecessors = g.ids.map fun id => (id, g.adjacency.predecessorsOf id) := by
  refine List.map_congr_left fun id hid => ?_
  simp only [Adjacency.predecessorsOf, adjacency, lookup_map_pair, if_pos hid, Option.getD_some]

end Graph

end NodeShader
