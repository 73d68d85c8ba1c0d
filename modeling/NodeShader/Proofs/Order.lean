import Mathlib.Data.Fintype.Card
import Mathlib.Data.Fintype.EquivFin
import Mathlib.Data.Fintype.Sets
import Mathlib.Logic.Relation
import Mathlib.Order.WellFounded
import NodeShader.Proofs.Adjacency
import NodeShader.Schedule.Basic

/-!
# The order of nodes

`drain` keeps for every waiting node the number of waiting nodes that feed it
(`Balanced`). One placed node keeps this count right (`Balanced.step`), and so a
whole run places every node after the nodes that feed it and leaves only nodes that
wait for one another (`drain_spec`).

* `Graph.topologicalOrder_ok`: an order lists the nodes once each, feeders first.
* `Graph.topologicalOrder_error`: without an order there are nodes left, and with each of
  them all that it feeds (`Graph.Leftover`).
* `Graph.topologicalOrder_isOk_iff`: there is an order exactly for a graph without
  directed cycles.
-/

namespace NodeShader

open Relation (TransGen)

/-- Everything that feeds a node of the list comes before it. -/
def FeedersFirst (feeds : String → String → Prop) (order : List String) : Prop :=
  ∀ before t after, order = before ++ t :: after → ∀ s, feeds s t → s ∈ before

section FeedersFirst

variable {feeds : String → String → Prop} {order : List String} {s t : String}

theorem FeedersFirst.mem (h : FeedersFirst feeds order) (ht : t ∈ order) (hst : feeds s t) :
    s ∈ order := by
  obtain ⟨before, after, rfl⟩ := List.append_of_mem ht
  exact List.mem_append_left _ (h before t after rfl s hst)

theorem FeedersFirst.idxOf_lt (h : FeedersFirst feeds order) (hn : order.Nodup) (ht : t ∈ order)
    (hst : feeds s t) : order.idxOf s < order.idxOf t := by
  obtain ⟨before, after, rfl⟩ := List.append_of_mem ht
  have hs : s ∈ before := h before t after rfl s hst
  have htb : t ∉ before := fun hb => (List.nodup_append.mp hn).2.2 t hb t (by simp) rfl
  rw [List.idxOf_append, if_pos hs, List.idxOf_append, if_neg htb, List.idxOf_cons_self]
  exact Nat.lt_of_lt_of_le (List.idxOf_lt_length_of_mem hs) (Nat.le_add_left _ _)

/-- A node of the list lies on no cycle. -/
theorem FeedersFirst.not_transGen_self (h : FeedersFirst feeds order) (hn : order.Nodup)
    (ht : t ∈ order) : ¬ TransGen feeds t t := by
  -- whatever leads to a node of the list is in it, and further ahead
  have hahead : ∀ s, TransGen feeds s t → s ∈ order ∧ order.idxOf s < order.idxOf t := by
    intro s hst
    induction hst using TransGen.head_induction_on with
    | single hst => exact ⟨h.mem ht hst, h.idxOf_lt hn ht hst⟩
    | head hsu _ ih => exact ⟨h.mem ih.1 hsu, (h.idxOf_lt hn ih.1 hsu).trans ih.2⟩
  exact fun hcycle => Nat.lt_irrefl _ (hahead t hcycle).2

/-- Whatever leads to a node of the list comes before it. -/
theorem FeedersFirst.mem_before (h : FeedersFirst feeds order) {before after : List String}
    (hsplit : order = before ++ t :: after) (hst : TransGen feeds s t) : s ∈ before := by
  induction hst using TransGen.head_induction_on with
  | single hst => exact h before t after hsplit _ hst
  | head hsu _ ih =>
    obtain ⟨first, last, rfl⟩ := List.append_of_mem ih
    have hfirst := h first _ (last ++ t :: after) (by rw [hsplit]; simp) _ hsu
    exact List.mem_append_left _ hfirst

end FeedersFirst

/-- Nodes that all wait for one another hold a cycle. -/
theorem exists_cycle_of_stuck {feeds : String → String → Prop} {left : List String}
    (hne : left ≠ []) (stuck : ∀ t ∈ left, ∃ s ∈ left, feeds s t) :
    ∃ t ∈ left, TransGen (fun a b => a ∈ left ∧ b ∈ left ∧ feeds a b) t t := by
  by_contra hc
  push Not at hc
  let below : {x // x ∈ left} → {x // x ∈ left} → Prop := fun a b =>
    TransGen (fun a b => a ∈ left ∧ b ∈ left ∧ feeds a b) a.1 b.1
  have : IsTrans _ below := ⟨fun _ _ _ hab hbc => hab.trans hbc⟩
  have : Std.Irrefl below := ⟨fun a ha => hc a.1 a.2 ha⟩
  have hwf : WellFounded below := Finite.wellFounded_of_trans_of_irrefl below
  obtain ⟨x, hx⟩ := List.exists_mem_of_ne_nil left hne
  -- a least node would wait for no other
  obtain ⟨least, -, hmin⟩ := hwf.has_min Set.univ ⟨⟨x, hx⟩, trivial⟩
  obtain ⟨s, hs, hfs⟩ := stuck least.1 least.2
  exact hmin ⟨s, hs⟩ trivial (.single ⟨hs, least.2, hfs⟩)

/-! ## Draining -/

section Drain

variable {predecessorsOf successorsOf : String → List String} {waiting : List Waiting}

/-- The waiting nodes are distinct, and each counts the waiting nodes that feed it. -/
structure Balanced (predecessorsOf : String → List String) (waiting : List Waiting) : Prop where
  nodup : (waiting.map Waiting.id).Nodup
  count : ∀ w ∈ waiting,
    w.count = (predecessorsOf w.id).countP (fun s => decide (s ∈ waiting.map Waiting.id))

theorem map_id_discharge (successors : List String) (waiting : List Waiting) :
    (discharge successors waiting).map Waiting.id = waiting.map Waiting.id := by
  simp only [discharge, List.map_map]
  refine List.map_congr_left fun w _ => ?_
  simp only [Function.comp_apply]
  split <;> rfl

/-- Taking one node off a list lowers a count of its members by one where it is counted. -/
theorem countP_mem_append {xs before after : List String} {x : String} (hxs : xs.Nodup)
    (hx : (before ++ x :: after).Nodup) :
    xs.countP (fun s => decide (s ∈ before ++ x :: after)) =
      xs.countP (fun s => decide (s ∈ before ++ after)) + if x ∈ xs then 1 else 0 := by
  have hout : x ∉ before ++ after := (List.nodup_middle.mp hx).notMem
  induction xs with
  | nil => simp
  | cons y ys ih =>
    obtain ⟨hy, hys⟩ := List.nodup_cons.mp hxs
    rw [List.countP_cons, List.countP_cons, ih hys]
    by_cases hxy : y = x
    · subst hxy
      simp only [List.mem_append, List.mem_cons, true_or, or_true, hy, decide_true] at hout ⊢
      simp [hout]
    · have hmem : y ∈ before ++ x :: after ↔ y ∈ before ++ after := by simp [hxy]
      have hin : x ∈ y :: ys ↔ x ∈ ys := by simp [Ne.symm hxy]
      simp only [hmem, hin]
      omega

/-- Placing a ready node keeps the counts right. -/
theorem Balanced.step (hb : Balanced predecessorsOf waiting)
    (hp : ∀ id, (predecessorsOf id).Nodup)
    (hsucc : ∀ s t, t ∈ successorsOf s ↔ s ∈ predecessorsOf t)
    {before after : List Waiting} {w : Waiting} (hw : waiting = before ++ w :: after) :
    Balanced predecessorsOf (discharge (successorsOf w.id) (before ++ after)) := by
  subst hw
  have hnd := hb.nodup
  rw [List.map_append, List.map_cons] at hnd
  constructor
  · rw [map_id_discharge, List.map_append]
    exact (List.nodup_middle.mp hnd).of_cons
  · intro v hv
    rw [map_id_discharge, List.map_append]
    obtain ⟨u, hu, rfl⟩ := List.mem_map.mp hv
    have hcount := hb.count u (by grind)
    rw [List.map_append, List.map_cons, countP_mem_append (hp _) hnd] at hcount
    split
    · rename_i hfed
      rw [if_pos ((hsucc _ _).mp (List.contains_iff_mem.mp hfed))] at hcount
      simp only [hcount, Nat.add_sub_cancel]
    · rename_i hfed
      rw [if_neg fun h => hfed (List.contains_iff_mem.mpr ((hsucc _ _).mpr h))] at hcount
      exact hcount

theorem eraseP_isReady {before after : List Waiting} {w : Waiting} (hw : w.isReady = true)
    (hbefore : ∀ b ∈ before, (!b.isReady) = true) :
    (before ++ w :: after).eraseP Waiting.isReady = before ++ after := by
  rw [List.eraseP_append_right _ (by simpa using hbefore), List.eraseP_cons_of_pos hw]

/-- The nodes placed and the nodes left are the nodes that waited; feeders are placed
first; and every node left waits for another. The nodes left keep their order. -/
structure Drained (predecessorsOf : String → List String) (ids placed left : List String) :
    Prop where
  perm : (placed ++ left).Perm ids
  sublist : left.Sublist ids
  first : FeedersFirst (fun s t => s ∈ ids ∧ s ∈ predecessorsOf t) placed
  stuck : ∀ t ∈ left, ∃ s ∈ left, s ∈ predecessorsOf t

theorem drain_spec (hp : ∀ id, (predecessorsOf id).Nodup)
    (hsucc : ∀ s t, t ∈ successorsOf s ↔ s ∈ predecessorsOf t)
    (hb : Balanced predecessorsOf waiting) :
    Drained predecessorsOf (waiting.map Waiting.id) (drain successorsOf waiting).1
      (drain successorsOf waiting).2 := by
  fun_induction drain successorsOf waiting with
  | case1 waiting hnone =>
    refine ⟨.refl _, .refl _, fun before t after h => by simp at h, fun t ht => ?_⟩
    obtain ⟨w, hw, rfl⟩ := List.mem_map.mp ht
    have hready : w.count ≠ 0 := by simpa [Waiting.isReady] using List.find?_eq_none.mp hnone w hw
    rw [hb.count w hw] at hready
    obtain ⟨s, hs, hin⟩ := List.countP_pos_iff.mp (Nat.pos_of_ne_zero hready)
    exact ⟨s, of_decide_eq_true hin, hs⟩
  | case2 waiting w hfind _ placed left heq ih =>
    obtain ⟨hready, before, after, rfl, hbefore⟩ := List.find?_eq_some_iff_append.mp hfind
    rw [eraseP_isReady hready hbefore] at heq ih
    have ih := ih (hb.step hp hsucc rfl)
    rw [heq, map_id_discharge, List.map_append] at ih
    rw [List.map_append, List.map_cons]
    refine ⟨?_, ?_, ?_, ih.stuck⟩
    · exact (ih.perm.cons w.id).trans List.perm_middle.symm
    · exact ih.sublist.trans ((List.sublist_cons_self w.id _).append_left _)
    · intro earlier t later h s ⟨hs, hst⟩
      cases earlier with
      | nil =>
        cases h
        -- the placed node counts no waiting feeder
        have hzero := hb.count w (by simp)
        rw [beq_iff_eq.mp hready, eq_comm, List.countP_eq_zero] at hzero
        rw [List.map_append, List.map_cons] at hzero
        exact absurd (decide_eq_true hs) (hzero s hst)
      | cons x earlier =>
        cases h
        by_cases hsw : s = w.id
        · exact hsw ▸ List.mem_cons_self
        · refine List.mem_cons_of_mem _ (ih.first earlier t later rfl s ⟨?_, hst⟩)
          simpa [hsw] using hs

end Drain

/-! ## Graphs -/

namespace Graph

variable {g : Graph}

/-- No edges between nodes of the graph lead from a node back to it. -/
def Acyclic (g : Graph) : Prop := ∀ id, ¬ TransGen g.Feeds id id

theorem map_id_waiting (g : Graph) : g.adjacency.waiting.map Waiting.id = g.ids := by
  simp only [Adjacency.waiting, predecessors_adjacency, List.map_map]
  exact List.map_id _

/-- At first every node counts all nodes that feed it. -/
theorem balanced_waiting (g : Graph) :
    Balanced g.adjacency.predecessorsOf g.adjacency.waiting := by
  constructor
  · rw [map_id_waiting]
    exact g.nodup_ids
  · intro w hw
    rw [map_id_waiting]
    simp only [Adjacency.waiting, predecessors_adjacency, List.map_map, List.mem_map,
      Function.comp_apply] at hw
    obtain ⟨id, -, rfl⟩ := hw
    refine (List.countP_eq_length.mpr fun s hs => ?_).symm
    exact decide_eq_true (mem_predecessorsOf.mp hs).1

theorem drained (g : Graph) :
    Drained g.adjacency.predecessorsOf g.ids
      (drain g.adjacency.successorsOf g.adjacency.waiting).1
      (drain g.adjacency.successorsOf g.adjacency.waiting).2 := by
  rw [← map_id_waiting g]
  exact drain_spec g.nodup_predecessorsOf
    (fun s t => mem_successorsOf.trans mem_predecessorsOf.symm) g.balanced_waiting

theorem placed_feedersFirst (g : Graph) :
    FeedersFirst g.Feeds (drain g.adjacency.successorsOf g.adjacency.waiting).1 :=
  fun before t after ho s hst =>
    g.drained.first before t after ho s ⟨hst.1, mem_predecessorsOf.mpr hst⟩

/-- An order is what is placed when nothing is left. -/
theorem drain_of_topologicalOrder {order : List String} (h : g.topologicalOrder = .ok order) :
    drain g.adjacency.successorsOf g.adjacency.waiting = (order, []) := by
  simp only [topologicalOrder] at h
  split at h
  · rename_i placed heq
    cases h
    exact heq
  · cases h

/-- An order lists the nodes of the graph, feeders first. -/
theorem topologicalOrder_ok {order : List String} (h : g.topologicalOrder = .ok order) :
    order.Perm g.ids ∧ FeedersFirst g.Feeds order := by
  have hd := g.drained
  have hfirst := g.placed_feedersFirst
  rw [drain_of_topologicalOrder h] at hd hfirst
  exact ⟨by simpa using hd.perm, hfirst⟩

/-- Nodes that are left without an order, ascending: each of them is fed by one of them, and they
hold all that they feed and every node on a cycle. -/
structure Leftover (g : Graph) (left : List String) : Prop where
  nonempty : left ≠ []
  sublist : left.Sublist g.ids
  fed : ∀ t ∈ left, ∃ s ∈ left, g.Feeds s t
  closed : ∀ s ∈ left, ∀ t, g.Feeds s t → t ∈ left
  cyclic : ∀ id, TransGen g.Feeds id id → id ∈ left

theorem Leftover.ascending {left : List String} (h : g.Leftover left) :
    left.Pairwise (· < ·) := (pairwise_ascendingIds _).sublist h.sublist

/-- Without an order there are nodes left, and the cycles among them are reported. -/
theorem topologicalOrder_error {e : ScheduleError} (h : g.topologicalOrder = .error e) :
    ∃ left, g.Leftover left ∧ e = .cycle (g.adjacency.cyclesAmong left) := by
  have hd := g.drained
  have hfirst := g.placed_feedersFirst
  simp only [topologicalOrder] at h
  split at h
  · cases h
  · rename_i placed left hne heq
    cases h
    rw [heq] at hd hfirst
    have hn : (placed ++ left).Nodup := hd.perm.nodup_iff.mpr g.nodup_ids
    have hplaced : ∀ id ∈ g.ids, id ∉ left → id ∈ placed := fun id hid hleft =>
      (List.mem_append.mp (hd.perm.mem_iff.mpr hid)).resolve_right hleft
    refine ⟨left, ⟨hne, hd.sublist, fun t ht => ?_, fun s hs t hst => ?_, fun id hcycle => ?_⟩, rfl⟩
    · obtain ⟨s, hs, hst⟩ := hd.stuck t ht
      exact ⟨s, hs, mem_predecessorsOf.mp hst⟩
    · -- what is placed was fed by placed nodes only
      by_contra ht
      have hsp : s ∈ placed := hfirst.mem (hplaced t hst.2.1 ht) hst
      exact (List.nodup_append.mp hn).2.2 s hsp s hs rfl
    · by_contra hid
      obtain ⟨_, hstep, -⟩ := TransGen.head'_iff.mp hcycle
      exact hfirst.not_transGen_self (List.nodup_append.mp hn).1 (hplaced id hstep.1 hid) hcycle

theorem acyclic_of_feedersFirst {order : List String} (hp : order.Perm g.ids)
    (hf : FeedersFirst g.Feeds order) : g.Acyclic := by
  intro id hcycle
  obtain ⟨_, hstep, -⟩ := TransGen.head'_iff.mp hcycle
  have hid : id ∈ order := hp.mem_iff.mpr hstep.1
  exact hf.not_transGen_self (hp.nodup_iff.mpr g.nodup_ids) hid hcycle

/-- There is an order exactly when there is no cycle. -/
theorem topologicalOrder_isOk_iff : (∃ order, g.topologicalOrder = .ok order) ↔ g.Acyclic := by
  constructor
  · rintro ⟨order, h⟩
    obtain ⟨hp, hf⟩ := topologicalOrder_ok h
    exact acyclic_of_feedersFirst hp hf
  · intro hg
    cases h : g.topologicalOrder with
    | ok order => exact ⟨order, rfl⟩
    | error e =>
      obtain ⟨left, hleft, -⟩ := topologicalOrder_error h
      obtain ⟨t, -, ht⟩ := exists_cycle_of_stuck hleft.nonempty hleft.fed
      exact absurd (TransGen.mono (fun _ _ h => h.2.2) t t ht) (hg t)

/-- A list of the nodes of a graph, each once, in which every edge between nodes leads
forward. -/
structure Linearizes (g : Graph) (order : List String) : Prop where
  nodup : order.Nodup
  mem_iff : ∀ id, id ∈ order ↔ ∃ n ∈ g.nodes, n.id = id
  forward : ∀ e ∈ g.edges, e.source ∈ order → e.target ∈ order →
    order.idxOf e.source < order.idxOf e.target

theorem linearizes_of_feedersFirst {order : List String} (hp : order.Perm g.ids)
    (hf : FeedersFirst g.Feeds order) : g.Linearizes order := by
  have hn : order.Nodup := hp.nodup_iff.mpr g.nodup_ids
  refine ⟨hn, fun id => hp.mem_iff.trans mem_ids, fun e he hs ht => ?_⟩
  have hfeeds : g.Feeds e.source e.target :=
    ⟨hp.mem_iff.mp hs, hp.mem_iff.mp ht, e, he, rfl, rfl⟩
  exact hf.idxOf_lt hn ht hfeeds

/-- Whatever the edges and ids of a graph, there is an order exactly if the edges between its
nodes form no cycle, and the order lists the nodes along these edges. -/
theorem topologicalOrder_sound_complete (g : Graph) :
    ((∃ order, g.topologicalOrder = .ok order) ↔ g.Acyclic) ∧
      ∀ order, g.topologicalOrder = .ok order → g.Linearizes order := by
  refine ⟨topologicalOrder_isOk_iff, fun order h => ?_⟩
  obtain ⟨hp, hf⟩ := topologicalOrder_ok h
  exact linearizes_of_feedersFirst hp hf

/-- Two nodes of one id, an edge listed twice, and edges from and to a node that is missing. -/
def tangledGraph : Graph :=
  { nodes := [⟨"b", "sin", ∅⟩, ⟨"a", "time", ∅⟩, ⟨"c", "cos", ∅⟩, ⟨"b", "cos", ∅⟩]
    edges := [⟨"1", "b", none, "c", none⟩, ⟨"2", "c", none, "a", none⟩,
      ⟨"3", "b", none, "c", some "value"⟩, ⟨"4", "x", none, "b", none⟩,
      ⟨"5", "a", none, "x", none⟩] }

theorem tangled_topologicalOrder :
    tangledGraph.topologicalOrder = .ok ["b", "c", "a"] ∧ tangledGraph.Acyclic ∧
      tangledGraph.Linearizes ["b", "c", "a"] := by
  have h : tangledGraph.topologicalOrder = .ok ["b", "c", "a"] := by decide +kernel
  obtain ⟨hiff, horder⟩ := topologicalOrder_sound_complete tangledGraph
  exact ⟨h, hiff.mp ⟨_, h⟩, horder _ h⟩

end Graph

end NodeShader
