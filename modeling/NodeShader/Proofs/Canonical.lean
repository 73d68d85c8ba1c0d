import NodeShader.Proofs.Order

/-!
# The least order

Every order of the waiting nodes begins with a node that is ready (`Balanced.isReady_of_first`),
and `drain` takes the least of these (`least_of_find?`). What follows the first node is again an
order of the nodes that wait (`Orders.tail`), so by induction along `drain` no order of the same
nodes is less than the one in which it places them (`drain_least`).

* `Graph.topologicalOrder_least`: a graph without cycles is ordered, and every other list of its
  nodes along its edges is lexicographically greater.
-/

namespace NodeShader

/-! ## Draining -/

section Drain

variable {predecessorsOf successorsOf : String → List String} {waiting : List Waiting}

/-- A list of nodes, each after those of the nodes that feed it. -/
structure Orders (predecessorsOf : String → List String) (ids order : List String) : Prop where
  perm : order.Perm ids
  first : FeedersFirst (fun s t => s ∈ ids ∧ s ∈ predecessorsOf t) order

/-- What follows the first node is an order of the other nodes. -/
theorem Orders.tail {before after rest : List String} {x : String}
    (h : Orders predecessorsOf (before ++ x :: after) (x :: rest))
    (hn : (before ++ x :: after).Nodup) : Orders predecessorsOf (before ++ after) rest := by
  constructor
  · exact List.Perm.cons_inv (h.perm.trans List.perm_middle)
  · intro earlier t later hsplit s ⟨hs, hst⟩
    have hin : s ∈ before ++ x :: after :=
      List.perm_middle.mem_iff.mpr (List.mem_cons_of_mem _ hs)
    have hmem := h.first (x :: earlier) t later (by rw [hsplit]; rfl) s ⟨hin, hst⟩
    have hne : s ≠ x := fun heq => (List.nodup_middle.mp hn).notMem (heq ▸ hs)
    exact (List.mem_cons.mp hmem).resolve_left hne

/-- Every order begins with a node that is ready. -/
theorem Balanced.isReady_of_first (hb : Balanced predecessorsOf waiting) {w : Waiting}
    (hw : w ∈ waiting) {rest : List String}
    (h : Orders predecessorsOf (waiting.map Waiting.id) (w.id :: rest)) : w.isReady = true := by
  rw [Waiting.isReady, hb.count w hw, beq_iff_eq, List.countP_eq_zero]
  intro s hs hin
  have hbefore := h.first [] w.id rest rfl s ⟨of_decide_eq_true hin, hs⟩
  simp at hbefore

/-- Among ascending nodes the first ready one is the least. -/
theorem least_of_find? (hasc : (waiting.map Waiting.id).Pairwise (· < ·)) {w v : Waiting}
    (hfind : waiting.find? Waiting.isReady = some w) (hv : v ∈ waiting)
    (hready : v.isReady = true) : w = v ∨ w.id < v.id := by
  obtain ⟨-, before, after, rfl, hbefore⟩ := List.find?_eq_some_iff_append.mp hfind
  rw [List.map_append, List.map_cons, List.pairwise_append] at hasc
  rcases List.mem_append.mp hv with hv | hv
  · simpa [hready] using hbefore v hv
  rcases List.mem_cons.mp hv with rfl | hv
  · exact .inl rfl
  · exact .inr ((List.pairwise_cons.mp hasc.2.1).1 v.id (List.mem_map_of_mem hv))

/-- Every other order of the waiting nodes is greater than the one in which they are placed. -/
theorem drain_least (hp : ∀ id, (predecessorsOf id).Nodup)
    (hsucc : ∀ s t, t ∈ successorsOf s ↔ s ∈ predecessorsOf t)
    (hb : Balanced predecessorsOf waiting) (hasc : (waiting.map Waiting.id).Pairwise (· < ·))
    {other : List String} (hother : Orders predecessorsOf (waiting.map Waiting.id) other)
    (hne : other ≠ (drain successorsOf waiting).1) :
    (drain successorsOf waiting).1 < other := by
  fun_induction drain successorsOf waiting generalizing other with
  | case1 waiting hnone =>
    obtain ⟨x, rest, rfl⟩ := List.exists_cons_of_ne_nil hne
    exact List.nil_lt_cons x rest
  | case2 waiting w hfind _ placed left heq ih =>
    cases other with
    | nil =>
      have hnil := List.map_eq_nil_iff.mp (List.nil_perm.mp hother.perm)
      simp [hnil] at hfind
    | cons x rest =>
      obtain ⟨v, hv, rfl⟩ := List.mem_map.mp (hother.perm.subset List.mem_cons_self)
      rcases least_of_find? hasc hfind hv (hb.isReady_of_first hv hother) with rfl | hlt
      · -- both begin with the same node, and the rest is compared
        obtain ⟨hw, before, after, rfl, hbefore⟩ := List.find?_eq_some_iff_append.mp hfind
        rw [eraseP_isReady hw hbefore] at heq ih
        rw [map_id_discharge, List.map_append, heq] at ih
        rw [List.map_append, List.map_cons] at hasc hother
        apply List.cons_lt_cons_iff.mpr (.inr ⟨rfl, _⟩)
        apply ih (hb.step hp hsucc rfl)
        · exact hasc.sublist ((List.sublist_cons_self _ _).append_left _)
        · exact hother.tail (nodup_of_pairwise_lt hasc)
        · exact fun hrest => hne (congrArg (w.id :: ·) hrest)
      · exact List.cons_lt_cons_iff.mpr (.inl hlt)

end Drain

/-! ## Graphs -/

namespace Graph

variable {g : Graph}

theorem Linearizes.perm {order : List String} (h : g.Linearizes order) : order.Perm g.ids :=
  (List.perm_ext_iff_of_nodup h.nodup g.nodup_ids).mpr fun id => (h.mem_iff id).trans mem_ids.symm

theorem Linearizes.feedersFirst {order : List String} (h : g.Linearizes order) :
    FeedersFirst g.Feeds order := by
  rintro before t after rfl s ⟨hs, ht, e, he, rfl, rfl⟩
  have hin {id : String} (hid : id ∈ g.ids) : id ∈ before ++ e.target :: after :=
    h.perm.mem_iff.mpr hid
  have hlt := h.forward e he (hin hs) (hin ht)
  have htarget : e.target ∉ before := fun hmem =>
    (List.nodup_append.mp h.nodup).2.2 _ hmem _ List.mem_cons_self rfl
  rw [List.idxOf_append_of_notMem htarget, List.idxOf_cons_self, Nat.add_zero] at hlt
  by_contra hsource
  rw [List.idxOf_append_of_notMem hsource] at hlt
  omega

/-- A graph without cycles is ordered, and its order is canonical: of all lists of its nodes along
its edges it is the least, where lists are compared lexicographically by the ids in them. -/
theorem topologicalOrder_least (h : g.Acyclic) :
    ∃ order, g.topologicalOrder = .ok order ∧ g.Linearizes order ∧
      ∀ other, g.Linearizes other → other ≠ order → order < other := by
  obtain ⟨order, horder⟩ := topologicalOrder_isOk_iff.mpr h
  obtain ⟨hperm, hfirst⟩ := topologicalOrder_ok horder
  refine ⟨order, horder, linearizes_of_feedersFirst hperm hfirst, fun other hother hne => ?_⟩
  have hleast := @drain_least g.adjacency.predecessorsOf g.adjacency.successorsOf
    g.adjacency.waiting g.nodup_predecessorsOf
    (fun s t => mem_successorsOf.trans mem_predecessorsOf.symm) g.balanced_waiting
  rw [map_id_waiting, drain_of_topologicalOrder horder] at hleast
  apply hleast (pairwise_ascendingIds _) _ hne
  exact ⟨hother.perm, fun before t after hsplit s hst =>
    hother.feedersFirst before t after hsplit s (mem_predecessorsOf.mp hst.2)⟩

/-- Two sources and a node that needs both, where the later source has the lesser id. -/
def forkedGraph : Graph :=
  { nodes := [⟨"out", "fragment_output", ∅⟩, ⟨"b", "add", ∅⟩, ⟨"c", "time_input", ∅⟩,
      ⟨"a", "time_input", ∅⟩]
    edges := [⟨"1", "c", none, "b", none⟩, ⟨"2", "a", none, "b", some "b"⟩] }

theorem forked_topologicalOrder :
    forkedGraph.Acyclic ∧ forkedGraph.topologicalOrder = .ok ["a", "c", "b", "out"] ∧
      forkedGraph.Linearizes ["c", "a", "b", "out"] ∧
      ["a", "c", "b", "out"] < ["c", "a", "b", "out"] := by
  have h : forkedGraph.topologicalOrder = .ok ["a", "c", "b", "out"] := by decide +kernel
  have hacyclic : forkedGraph.Acyclic := topologicalOrder_isOk_iff.mp ⟨_, h⟩
  have hother : forkedGraph.Linearizes ["c", "a", "b", "out"] := by
    have hperm : ["c", "a", "b", "out"].Perm forkedGraph.ids := by decide
    exact ⟨by decide, fun id => hperm.mem_iff.trans mem_ids, by decide⟩
  obtain ⟨order, horder, -, hleast⟩ := topologicalOrder_least hacyclic
  rw [h] at horder
  cases horder
  exact ⟨hacyclic, h, hother, hleast _ hother (by decide)⟩

end Graph

end NodeShader
