import NodeShader.Proofs.Schedule

/-!
# The cycles of a graph

Paths from a node that is left without an order stay among the nodes that are left
(`Graph.Leftover.reflTransGen_iff`), so the components of these nodes are components of the whole
graph, and no component with a cycle is missing.

* `Graph.IsCycle`: a strongly connected component that holds a cycle;
* `Graph.topologicalOrder_cycles`: the cycles that are reported are all of these, each once, in
  ascending order.
-/

namespace NodeShader

open Relation (ReflTransGen TransGen)

namespace Graph

variable {g : Graph} {left : List String}

/-! ## Components of the whole graph -/

/-- Two nodes with paths in both directions. -/
def StronglyConnected (g : Graph) (s t : String) : Prop :=
  ReflTransGen g.Feeds s t ∧ ReflTransGen g.Feeds t s

/-- The ids of a strongly connected component, ascending: a node of the graph and all nodes with
paths from it and to it. -/
structure IsComponent (g : Graph) (members : List String) : Prop where
  ascending : members.Pairwise (· < ·)
  whole : ∃ id ∈ g.ids, ∀ x, x ∈ members ↔ g.StronglyConnected id x

/-- A component with at least two nodes, or with a node that feeds itself. -/
structure IsCycle (g : Graph) (members : List String) : Prop extends IsComponent g members where
  cyclic : 2 ≤ members.length ∨ ∃ id ∈ members, g.Feeds id id

theorem transGen_of_ne {s t : String} (h : g.StronglyConnected s t) (hne : s ≠ t) :
    TransGen g.Feeds s s := by
  rcases Relation.reflTransGen_iff_eq_or_transGen.mp h.1 with heq | hto
  · exact absurd heq.symm hne
  · exact TransGen.trans_left hto h.2

/-- Every node of a component with a cycle lies on one. -/
theorem IsCycle.transGen_self {members : List String} (h : g.IsCycle members) {id : String}
    (hid : id ∈ members) : TransGen g.Feeds id id := by
  obtain ⟨root, -, hmem⟩ := h.whole
  have hpaths : ∀ x ∈ members, g.StronglyConnected id x := fun x hx =>
    ⟨((hmem id).mp hid).2.trans ((hmem x).mp hx).1, ((hmem x).mp hx).2.trans ((hmem id).mp hid).1⟩
  rcases h.cyclic with htwo | ⟨x, hx, hself⟩
  · -- one of the first two nodes is another node
    match members, htwo with
    | a :: b :: _, _ =>
      have hab : a ≠ b := fun heq =>
        String.lt_irrefl b (heq ▸ (List.pairwise_cons.mp h.ascending).1 b List.mem_cons_self)
      by_cases hia : id = a
      · have hib : id ≠ b := fun hib => hab (hia.symm.trans hib)
        exact transGen_of_ne (hpaths b (by simp)) hib
      · exact transGen_of_ne (hpaths a (by simp)) hia
  · have hloop : TransGen g.Feeds id x := TransGen.tail' (hpaths x hx).1 hself
    exact TransGen.trans_left hloop (hpaths x hx).2

/-! ## Among the nodes that are left -/

theorem Leftover.mem_of_reflTransGen (h : g.Leftover left) {s t : String} (hs : s ∈ left)
    (hst : ReflTransGen g.Feeds s t) : t ∈ left := by
  induction hst with
  | refl => exact hs
  | tail _ hstep ih => exact h.closed _ ih _ hstep

/-- Paths from a node that is left are paths among the nodes that are left. -/
theorem Leftover.reflTransGen_iff (h : g.Leftover left) {s t : String} (hs : s ∈ left) :
    ReflTransGen (g.FeedsWithin left) s t ↔ ReflTransGen g.Feeds s t := by
  refine ⟨ReflTransGen.mono (fun _ _ hstep => hstep.2.2) s t, fun hst => ?_⟩
  induction hst with
  | refl => exact .refl
  | tail hsu hstep ih =>
    have hu := h.mem_of_reflTransGen hs hsu
    exact ih.tail ⟨hu, h.closed _ hu _ hstep, hstep⟩

theorem Leftover.transGen_self (h : g.Leftover left) {id : String}
    (hcycle : TransGen g.Feeds id id) : TransGen (g.FeedsWithin left) id id := by
  have hid := h.cyclic id hcycle
  obtain ⟨next, hstep, hback⟩ := TransGen.head'_iff.mp hcycle
  have hnext := h.closed id hid next hstep
  exact TransGen.head' ⟨hid, hnext, hstep⟩ ((h.reflTransGen_iff hnext).mpr hback)

theorem Leftover.mutual_iff (h : g.Leftover left) {s t : String} (hs : s ∈ left) :
    t ∈ left ∧ g.Mutual left s t ↔ g.StronglyConnected s t := by
  constructor
  · rintro ⟨ht, hst, hts⟩
    exact ⟨(h.reflTransGen_iff hs).mp hst, (h.reflTransGen_iff ht).mp hts⟩
  · rintro ⟨hst, hts⟩
    have ht := h.mem_of_reflTransGen hs hst
    exact ⟨ht, (h.reflTransGen_iff hs).mpr hst, (h.reflTransGen_iff ht).mpr hts⟩

/-- The cycles among the nodes that are left are the cycles of the whole graph. -/
theorem Leftover.mem_cyclesAmong_iff (h : g.Leftover left) {members : List String} :
    members ∈ g.adjacency.cyclesAmong left ↔ g.IsCycle members := by
  rw [mem_cyclesAmong h.ascending]
  constructor
  · rintro ⟨hasc, ⟨id, hid, hclass⟩, hcyclic⟩
    have hleft : id ∈ left := ((hclass id).mp hid).1
    refine ⟨⟨hasc, id, h.sublist.subset hleft, fun x => ?_⟩, hcyclic⟩
    exact (hclass x).trans (h.mutual_iff hleft)
  · intro hcycle
    obtain ⟨id, -, hclass⟩ := hcycle.whole
    have hid : id ∈ members := (hclass id).mpr ⟨.refl, .refl⟩
    have hleft : id ∈ left := h.cyclic id (hcycle.transGen_self hid)
    refine ⟨hcycle.ascending, ⟨id, hid, fun x => ?_⟩, hcycle.cyclic⟩
    exact (hclass x).trans (h.mutual_iff hleft).symm

/-- If a graph has no order, the reported cycles are its strongly connected components with a
cycle: there is one, each is listed once, and they are ascending lists in ascending order. The nodes
in them are the nodes on cycles, and no others. -/
theorem topologicalOrder_cycles {e : ScheduleError} (h : g.topologicalOrder = .error e) :
    ∃ cycles, e = .cycle cycles ∧ cycles ≠ [] ∧
      (∀ members, members ∈ cycles ↔ g.IsCycle members) ∧
      cycles.Pairwise (· < ·) ∧
      ∀ id, (∃ members ∈ cycles, id ∈ members) ↔ TransGen g.Feeds id id := by
  obtain ⟨cycles, rfl, hne⟩ := topologicalOrder_eq_error h
  obtain ⟨left, hleft, heq⟩ := topologicalOrder_error h
  cases heq
  refine ⟨_, rfl, hne, fun members => hleft.mem_cyclesAmong_iff, ?_, fun id => ⟨?_, ?_⟩⟩
  · exact cyclesAmong_pairwise hleft.ascending
  · rintro ⟨members, hmembers, hid⟩
    exact (hleft.mem_cyclesAmong_iff.mp hmembers).transGen_self hid
  · exact fun hcycle => exists_mem_cyclesAmong hleft.ascending (hleft.transGen_self hcycle)

/-- A node that feeds itself, two nodes that feed each other, and a node behind both. -/
def loopedGraph : Graph :=
  { nodes := [⟨"s", "sin", ∅⟩, ⟨"d", "cos", ∅⟩, ⟨"b", "add", ∅⟩, ⟨"a", "abs", ∅⟩, ⟨"t", "time", ∅⟩]
    edges := [⟨"1", "s", none, "s", none⟩, ⟨"2", "b", none, "a", none⟩, ⟨"3", "a", none, "b", none⟩,
      ⟨"4", "t", none, "b", some "b"⟩, ⟨"5", "s", none, "d", none⟩, ⟨"6", "b", none, "d", none⟩] }

theorem looped_topologicalOrder :
    loopedGraph.topologicalOrder = .error (.cycle [["a", "b"], ["s"]]) ∧
      loopedGraph.IsCycle ["a", "b"] ∧ loopedGraph.IsCycle ["s"] ∧
      ¬ TransGen loopedGraph.Feeds "d" "d" := by
  have hcycles : loopedGraph.adjacency.cyclesAmong ["a", "b", "d", "s"] = [["a", "b"], ["s"]] := by
    have hfound :
        (ComponentSearch.run (loopedGraph.adjacency.edgesAmong ["a", "b", "d", "s"])).components =
          [[2], [1, 0], [3]] := by decide +kernel
    have hcyclic : [[2], [1, 0], [3]].filter
        (loopedGraph.adjacency.isCyclic ["a", "b", "d", "s"]) = [[1, 0], [3]] := by decide +kernel
    rw [Adjacency.cyclesAmong, hfound, hcyclic]
    have hpair : sortedComponent ["a", "b", "d", "s"] [1, 0] = ["a", "b"] :=
      sortAscending_eq (by decide) (by decide)
    have hself : sortedComponent ["a", "b", "d", "s"] [3] = ["s"] :=
      sortAscending_eq (by decide) (by decide)
    exact sortAscending_eq (by decide) (.of_eq (congrArg₂ (fun a b => [a, b]) hpair hself))
  have hdrain : drain loopedGraph.adjacency.successorsOf loopedGraph.adjacency.waiting =
      (["t"], ["a", "b", "d", "s"]) := by decide +kernel
  have h : loopedGraph.topologicalOrder = .error (.cycle [["a", "b"], ["s"]]) := by
    rw [topologicalOrder, hdrain, ← hcycles]
  obtain ⟨cycles, heq, -, hmem, -, hon⟩ := topologicalOrder_cycles h
  cases heq
  refine ⟨h, (hmem _).mp (by simp), (hmem _).mp (by simp), fun hd => ?_⟩
  obtain ⟨members, hmembers, hin⟩ := (hon "d").mpr hd
  revert members
  decide

end Graph

end NodeShader
