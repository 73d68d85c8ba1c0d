import NodeShader.Proofs.Order

/-!
# The counts of the ordering loop

The loop that orders nodes is followed round by round (`Round`): each round places the first ready
node and lowers the counts of the nodes that it feeds. At every moment of a run (`Graph.Passes`)
the nodes are either placed or waiting, the counts are right, the placed nodes wait for nothing, and
what became ready is placed or ready still (`Graph.Counted`). One round keeps all this
(`Graph.Counted.round`), and so do all rounds (`Graph.Passes.counted`). The last moment of the run
is what the order of a graph is made from (`Graph.exists_last`).

* `Graph.counts_exact`: both tables of an adjacency hold the edges between nodes, so counts never
  fall below zero and no node becomes ready twice.
-/

namespace NodeShader

open Relation (ReflTransGen)

/-! ## Rounds -/

/-- The nodes that wait for nothing. -/
def readyIds (waiting : List Waiting) : List String :=
  (waiting.filter Waiting.isReady).map Waiting.id

/-- The nodes that become ready when a predecessor of the given nodes is placed: those whose
count is lowered, to zero. -/
def released (successors : List String) (waiting : List Waiting) : List String :=
  readyIds ((discharge successors waiting).filter fun w => successors.contains w.id)

/-- A moment of the loop: the nodes placed so far, in order, the nodes that wait, and the nodes
that became ready so far, each as often as it did. -/
structure Progress where
  placed : List String
  waiting : List Waiting
  entered : List String

/-- The count that is kept for a node. A placed node has nothing left to count. -/
def Progress.degree (p : Progress) (id : String) : Nat :=
  ((p.waiting.find? (fun w => w.id == id)).map Waiting.count).getD 0

/-- One round of the loop: it places the first ready node, and what this node feeds waits for one
node less. -/
inductive Round (successorsOf : String → List String) : Progress → Progress → Prop where
  | place {placed entered : List String} {waiting : List Waiting} {w : Waiting}
    (h : waiting.find? Waiting.isReady = some w) :
    Round successorsOf ⟨placed, waiting, entered⟩
      ⟨placed ++ [w.id], discharge (successorsOf w.id) (waiting.eraseP Waiting.isReady),
        entered ++ released (successorsOf w.id) (waiting.eraseP Waiting.isReady)⟩

/-- The rounds end with the result of `drain`. -/
theorem exists_last_round (successorsOf : String → List String) (p : Progress) :
    ∃ last, ReflTransGen (Round successorsOf) p last ∧
      last.waiting.find? Waiting.isReady = none ∧
      last.placed = p.placed ++ (drain successorsOf p.waiting).1 ∧
      last.waiting.map Waiting.id = (drain successorsOf p.waiting).2 := by
  obtain ⟨placed, waiting, entered⟩ := p
  dsimp only
  fun_induction drain successorsOf waiting generalizing placed entered with
  | case1 waiting hnone => exact ⟨⟨placed, waiting, entered⟩, .refl, hnone, by simp, rfl⟩
  | case2 waiting w hfind _ rest left heq ih =>
    rw [heq] at ih
    obtain ⟨last, hrun, hnone, hplaced, hleft⟩ := ih (placed ++ [w.id]) _
    refine ⟨last, .head (.place hfind) hrun, hnone, ?_, hleft⟩
    rw [hplaced, List.append_assoc]
    rfl

theorem readyIds_cons (w : Waiting) (waiting : List Waiting) :
    readyIds (w :: waiting) =
      if w.count = 0 then w.id :: readyIds waiting else readyIds waiting := by
  by_cases h : w.count = 0 <;> simp [readyIds, Waiting.isReady, h]

theorem released_cons (successors : List String) (w : Waiting) (waiting : List Waiting) :
    released successors (w :: waiting) =
      if w.id ∈ successors ∧ w.count - 1 = 0 then w.id :: released successors waiting
      else released successors waiting := by
  by_cases h : w.id ∈ successors
  · simp only [released, discharge, List.map_cons, List.contains_iff_mem.mpr h, if_true,
      List.filter_cons_of_pos, readyIds_cons, h, true_and]
  · simp [released, discharge, h]

/-- Where counts do not fall below zero, what is ready after a discharge was ready before or becomes
ready by it. -/
theorem readyIds_discharge_perm {successors : List String} {waiting : List Waiting}
    (h : ∀ w ∈ waiting, w.id ∈ successors → 0 < w.count) :
    (readyIds (discharge successors waiting)).Perm
      (readyIds waiting ++ released successors waiting) := by
  induction waiting with
  | nil => exact .refl _
  | cons w waiting ih =>
    obtain ⟨hw, hwaiting⟩ := List.forall_mem_cons.mp h
    have ih := ih hwaiting
    rw [discharge, List.map_cons, ← discharge, released_cons, readyIds_cons w]
    by_cases hin : w.id ∈ successors
    · have hpos : w.count ≠ 0 := Nat.pos_iff_ne_zero.mp (hw hin)
      rw [if_pos (List.contains_iff_mem.mpr hin), readyIds_cons, if_neg hpos]
      by_cases hlast : w.count - 1 = 0
      · rw [if_pos hlast, if_pos ⟨hin, hlast⟩]
        exact (ih.cons w.id).trans List.perm_middle.symm
      · rw [if_neg hlast, if_neg fun h => hlast h.2]
        exact ih
    · have hkept : ¬ (w.id ∈ successors ∧ w.count - 1 = 0) := fun h => hin h.1
      rw [if_neg (mt List.contains_iff_mem.mp hin), if_neg hkept, readyIds_cons]
      split
      · exact ih.cons w.id
      · exact ih

/-! ## Counts -/

theorem degree_of_mem {p : Progress} (hn : (p.waiting.map Waiting.id).Nodup) {w : Waiting}
    (hw : w ∈ p.waiting) : p.degree w.id = w.count := by
  obtain ⟨v, hv⟩ : ∃ v, p.waiting.find? (fun v => v.id == w.id) = some v := by
    rw [← Option.isSome_iff_exists, List.find?_isSome]
    exact ⟨w, hw, beq_self_eq_true _⟩
  have hid : v.id = w.id := by simpa using List.find?_some hv
  have heq : v = w := List.inj_on_of_nodup_map hn (List.mem_of_find?_eq_some hv) hw hid
  rw [Progress.degree, hv, heq]
  rfl

theorem degree_of_notMem {p : Progress} {id : String} (h : id ∉ p.waiting.map Waiting.id) :
    p.degree id = 0 := by
  have hnone : p.waiting.find? (fun w => w.id == id) = none := by
    refine List.find?_eq_none.mpr fun w hw heq => h ?_
    exact List.mem_map.mpr ⟨w, hw, beq_iff_eq.mp heq⟩
  rw [Progress.degree, hnone]
  rfl

namespace Graph

variable {g : Graph} {p q : Progress}

/-- All nodes wait, and those without a predecessor are ready. -/
def outset (g : Graph) : Progress := ⟨[], g.adjacency.waiting, readyIds g.adjacency.waiting⟩

/-- The moments of the loop that orders the nodes of the graph. -/
def Passes (g : Graph) (p : Progress) : Prop :=
  ReflTransGen (Round g.adjacency.successorsOf) g.outset p

/-- What holds at every moment. The nodes are placed or wait, and each that waits counts the waiting
nodes that feed it; placed nodes are fed by placed nodes only; and the nodes that became ready are
placed or ready still, each once. -/
structure Counted (g : Graph) (p : Progress) : Prop where
  perm : (p.placed ++ p.waiting.map Waiting.id).Perm g.ids
  balanced : Balanced g.adjacency.predecessorsOf p.waiting
  settled : ∀ t ∈ p.placed, ∀ s, g.Feeds s t → s ∈ p.placed
  entered : p.entered.Perm (p.placed ++ readyIds p.waiting)

theorem counted_outset (g : Graph) : g.Counted g.outset where
  perm := by
    rw [outset, map_id_waiting]
    exact .refl _
  balanced := g.balanced_waiting
  settled := fun t ht => absurd ht List.not_mem_nil
  entered := .refl _

theorem Counted.nodup (h : g.Counted p) : (p.placed ++ p.waiting.map Waiting.id).Nodup :=
  h.perm.nodup_iff.mpr g.nodup_ids

/-- A node of the graph waits unless it is placed. -/
theorem Counted.mem_waiting_iff (h : g.Counted p) {id : String} (hid : id ∈ g.ids) :
    id ∈ p.waiting.map Waiting.id ↔ id ∉ p.placed := by
  have hmem := List.mem_append.mp (h.perm.mem_iff.mpr hid)
  exact ⟨fun hw hplaced => (List.nodup_append.mp h.nodup).2.2 id hplaced id hw rfl,
    hmem.resolve_left⟩

/-- The count of a node is the number of its predecessors that wait. -/
theorem Counted.degree_eq_waiting (h : g.Counted p) (id : String) :
    p.degree id = (g.adjacency.predecessorsOf id).countP
      fun s => decide (s ∈ p.waiting.map Waiting.id) := by
  by_cases hid : id ∈ p.waiting.map Waiting.id
  · obtain ⟨w, hw, rfl⟩ := List.mem_map.mp hid
    rw [degree_of_mem h.balanced.nodup hw, h.balanced.count w hw]
  · rw [degree_of_notMem hid, eq_comm, List.countP_eq_zero]
    intro s hs
    have hfeeds := mem_predecessorsOf.mp hs
    -- a node that does not wait is placed, and so is what feeds it
    have hplaced : id ∈ p.placed := by
      by_contra hnot
      exact hid ((h.mem_waiting_iff hfeeds.2.1).mpr hnot)
    rw [decide_eq_true_iff, h.mem_waiting_iff hfeeds.1, not_not]
    exact h.settled id hplaced s hfeeds

/-- The count of a node is the number of its predecessors that are not placed yet. -/
theorem Counted.degree_eq (h : g.Counted p) (id : String) :
    p.degree id = (g.adjacency.predecessorsOf id).countP fun s => decide (s ∉ p.placed) := by
  rw [h.degree_eq_waiting]
  refine List.countP_congr fun s hs => ?_
  rw [decide_eq_true_iff, decide_eq_true_iff]
  exact h.mem_waiting_iff (mem_predecessorsOf.mp hs).1

/-- What a waiting node feeds counts it. -/
theorem Counted.count_pos (h : g.Counted p) {v w : Waiting} (hv : v ∈ p.waiting)
    (hw : w ∈ p.waiting) (hfed : v.id ∈ g.adjacency.successorsOf w.id) : 0 < v.count := by
  rw [h.balanced.count v hv]
  refine List.countP_pos_iff.mpr ⟨w.id, ?_, decide_eq_true (List.mem_map_of_mem hw)⟩
  exact mem_predecessorsOf.mpr (mem_successorsOf.mp hfed)

/-- What feeds a ready node is placed. -/
theorem Counted.mem_placed (h : g.Counted p) {w : Waiting} (hw : w ∈ p.waiting)
    (hready : w.isReady = true) {s : String} (hfeeds : g.Feeds s w.id) : s ∈ p.placed := by
  have hzero := h.degree_eq w.id
  rw [degree_of_mem h.balanced.nodup hw, beq_iff_eq.mp hready, eq_comm,
    List.countP_eq_zero] at hzero
  simpa using hzero s (mem_predecessorsOf.mpr hfeeds)

theorem readyIds_of_first {before after : List Waiting} {w : Waiting} (hready : w.isReady = true)
    (hbefore : ∀ b ∈ before, (!b.isReady) = true) :
    readyIds (before ++ w :: after) = w.id :: readyIds (before ++ after) := by
  have hnone : before.filter Waiting.isReady = [] := by simpa using hbefore
  simp only [readyIds, List.filter_append, hnone, List.nil_append, List.filter_cons_of_pos hready,
    List.map_cons]

/-- A round keeps all this. -/
theorem Counted.round (h : g.Counted p) (hround : Round g.adjacency.successorsOf p q) :
    g.Counted q := by
  obtain @⟨placed, entered, waiting, w, hfind⟩ := hround
  obtain ⟨hready, before, after, rfl, hbefore⟩ := List.find?_eq_some_iff_append.mp hfind
  have hw : w ∈ before ++ w :: after := by simp
  rw [eraseP_isReady hready hbefore]
  refine ⟨?_, ?_, fun t ht s hst => ?_, ?_⟩
  · rw [map_id_discharge, List.append_assoc]
    refine .trans (.append_left placed ?_) h.perm
    simp only [List.map_append, List.map_cons, List.singleton_append]
    exact List.perm_middle.symm
  · exact h.balanced.step g.nodup_predecessorsOf
      (fun s t => mem_successorsOf.trans mem_predecessorsOf.symm) rfl
  · rcases List.mem_append.mp ht with ht | ht
    · exact List.mem_append_left _ (h.settled t ht s hst)
    · rw [List.mem_singleton.mp ht] at hst
      exact List.mem_append_left _ (h.mem_placed hw hready hst)
  · -- what the placed node feeds still counts it, so no count is cut off at zero
    have hpos : ∀ v ∈ before ++ after, v.id ∈ g.adjacency.successorsOf w.id → 0 < v.count :=
      fun v hv => h.count_pos (p := ⟨placed, before ++ w :: after, entered⟩) (by grind) hw
    have hold := h.entered
    rw [readyIds_of_first hready hbefore] at hold
    refine (hold.append_right _).trans ?_
    rw [List.append_assoc, List.append_assoc, List.singleton_append, List.cons_append]
    exact ((readyIds_discharge_perm hpos).symm.cons w.id).append_left placed

theorem Passes.counted (h : g.Passes p) : g.Counted p := by
  induction h with
  | refl => exact g.counted_outset
  | tail _ hround ih => exact ih.round hround

/-- In a round the counts of the nodes that are fed fall by one, and the others stay. -/
theorem Counted.degree_round (h : g.Counted p) (hround : Round g.adjacency.successorsOf p q) :
    ∃ id, q.placed = p.placed ++ [id] ∧ ∀ t,
      p.degree t = q.degree t + if t ∈ g.adjacency.successorsOf id then 1 else 0 := by
  have hq := h.round hround
  obtain @⟨placed, entered, waiting, w, hfind⟩ := hround
  obtain ⟨hready, before, after, rfl, hbefore⟩ := List.find?_eq_some_iff_append.mp hfind
  refine ⟨w.id, rfl, fun t => ?_⟩
  have hnodup := h.balanced.nodup
  rw [h.degree_eq_waiting, hq.degree_eq_waiting, eraseP_isReady hready hbefore, map_id_discharge]
  simp only [List.map_append, List.map_cons] at hnodup ⊢
  have hfed : w.id ∈ g.adjacency.predecessorsOf t ↔ t ∈ g.adjacency.successorsOf w.id :=
    mem_predecessorsOf.trans mem_successorsOf.symm
  rw [countP_mem_append (g.nodup_predecessorsOf t) hnodup]
  simp only [hfed]

/-- What became ready is placed or ready still, each node once. -/
theorem Counted.nodup_entered (h : g.Counted p) : p.entered.Nodup := by
  refine h.entered.nodup_iff.mpr (h.nodup.sublist ?_)
  exact (List.filter_sublist.map Waiting.id).append_left p.placed

theorem topologicalOrder_eq_of_drain {placed left : List String}
    (h : drain g.adjacency.successorsOf g.adjacency.waiting = (placed, left)) :
    (left = [] → g.topologicalOrder = .ok placed) ∧
      (left ≠ [] → g.topologicalOrder = .error (.cycle (g.adjacency.cyclesAmong left))) := by
  cases left with
  | nil => simp [topologicalOrder, h]
  | cons id left => simp [topologicalOrder, h]

/-- The order of a graph is made from the last moment of the loop. -/
theorem exists_last (g : Graph) :
    ∃ last, g.Passes last ∧ last.waiting.find? Waiting.isReady = none ∧
      (last.waiting = [] → g.topologicalOrder = .ok last.placed) ∧
      (last.waiting ≠ [] → g.topologicalOrder =
        .error (.cycle (g.adjacency.cyclesAmong (last.waiting.map Waiting.id)))) := by
  obtain ⟨last, hpasses, hnone, hplaced, hleft⟩ :=
    exists_last_round g.adjacency.successorsOf g.outset
  have hdrain : drain g.adjacency.successorsOf g.adjacency.waiting =
      (last.placed, last.waiting.map Waiting.id) := Prod.ext hplaced.symm hleft.symm
  obtain ⟨hok, herror⟩ := topologicalOrder_eq_of_drain hdrain
  exact ⟨last, hpasses, hnone, fun hnil => hok (by rw [hnil]; rfl),
    fun hne => herror (mt List.map_eq_nil_iff.mp hne)⟩

/-! ## Tables -/

theorem map_fst_predecessors (g : Graph) : g.adjacency.predecessors.map Prod.fst = g.ids := by
  rw [predecessors_adjacency, List.map_map]
  exact List.map_id _

theorem map_fst_successors (g : Graph) : g.adjacency.successors.map Prod.fst = g.ids :=
  g.nodes_adjacency

theorem feeds_iff {s t : String} :
    g.Feeds s t ↔ (∃ e ∈ g.edges, e.source = s ∧ e.target = t) ∧
      (∃ n ∈ g.nodes, n.id = s) ∧ ∃ n ∈ g.nodes, n.id = t := by
  rw [Feeds, mem_ids, mem_ids, ← and_assoc, and_comm]

/-- Every node of a graph has an entry in both tables, and these hold the edges between nodes in
both directions. So at every moment of the loop that orders the nodes, the count of a node is the
number of its predecessors that are not placed yet. A round lowers the counts of the nodes that the
placed node feeds by one, and no other. What became ready is placed or ready still, and no
node became ready twice. The order is what the last moment of the loop leaves. -/
theorem counts_exact (g : Graph) :
    (∀ table ∈ [g.adjacency.predecessors, g.adjacency.successors], (table.map Prod.fst).Nodup ∧
      ∀ id, id ∈ table.map Prod.fst ↔ ∃ n ∈ g.nodes, n.id = id) ∧
    (∀ id, (g.adjacency.predecessorsOf id).Nodup ∧ (g.adjacency.successorsOf id).Nodup) ∧
    (∀ s t, (t ∈ g.adjacency.successorsOf s ↔ s ∈ g.adjacency.predecessorsOf t) ∧
      (s ∈ g.adjacency.predecessorsOf t ↔ (∃ e ∈ g.edges, e.source = s ∧ e.target = t) ∧
        (∃ n ∈ g.nodes, n.id = s) ∧ ∃ n ∈ g.nodes, n.id = t)) ∧
    (∀ p, g.Passes p →
      (∀ id, p.degree id =
        (g.adjacency.predecessorsOf id).countP fun s => decide (s ∉ p.placed)) ∧
      (∀ q, Round g.adjacency.successorsOf p q → ∃ id, q.placed = p.placed ++ [id] ∧ ∀ t,
        p.degree t = q.degree t + if t ∈ g.adjacency.successorsOf id then 1 else 0) ∧
      p.entered.Nodup ∧ ∀ id, id ∈ p.entered ↔ id ∈ p.placed ∨ id ∈ readyIds p.waiting) ∧
    ∃ last, g.Passes last ∧ last.waiting.find? Waiting.isReady = none ∧
      (last.waiting = [] → g.topologicalOrder = .ok last.placed) ∧
      (last.waiting ≠ [] → g.topologicalOrder =
        .error (.cycle (g.adjacency.cyclesAmong (last.waiting.map Waiting.id)))) := by
  refine ⟨fun table htable => ?_, fun id => ⟨g.nodup_predecessorsOf id, g.nodup_successorsOf id⟩,
    fun s t => ⟨?_, ?_⟩, fun p hp => ?_, g.exists_last⟩
  · have hkeys : table.map Prod.fst = g.ids := by
      rcases List.mem_pair.mp htable with rfl | rfl
      · exact g.map_fst_predecessors
      · exact g.map_fst_successors
    rw [hkeys]
    exact ⟨g.nodup_ids, fun id => mem_ids⟩
  · exact mem_successorsOf.trans mem_predecessorsOf.symm
  · exact mem_predecessorsOf.trans feeds_iff
  · have hcounted := hp.counted
    refine ⟨hcounted.degree_eq, fun q => hcounted.degree_round, hcounted.nodup_entered,
      fun id => ?_⟩
    rw [hcounted.entered.mem_iff, List.mem_append]

/-- A node twice, an edge twice, an edge from a node that is missing, and a node that feeds
itself. -/
def selfFedGraph : Graph :=
  { nodes := [⟨"b", "sin", ∅⟩, ⟨"a", "time", ∅⟩, ⟨"c", "mix", ∅⟩, ⟨"b", "cos", ∅⟩]
    edges := [⟨"1", "a", none, "b", none⟩, ⟨"2", "a", none, "b", some "value"⟩,
      ⟨"3", "x", none, "b", none⟩, ⟨"4", "b", none, "c", none⟩, ⟨"5", "c", none, "c", none⟩] }

/-- After the first round the second node counts nothing any more, and the third still waits for
itself and for the second. -/
theorem selfFed_counts :
    ∃ p, Round selfFedGraph.adjacency.successorsOf selfFedGraph.outset p ∧ p.placed = ["a"] ∧
      selfFedGraph.outset.degree "b" = p.degree "b" + 1 ∧ p.degree "c" = 2 ∧
      p.entered = ["a", "b"] ∧ p.entered.Nodup := by
  have hround : Round selfFedGraph.adjacency.successorsOf selfFedGraph.outset _ :=
    @Round.place _ [] _ _ ⟨"a", 0⟩ (by decide +kernel)
  obtain ⟨-, -, -, hmoments, -⟩ := counts_exact selfFedGraph
  obtain ⟨-, hrounds, -⟩ := hmoments _ .refl
  obtain ⟨id, hplaced, hfall⟩ := hrounds _ hround
  obtain rfl : "a" = id := by simpa [outset] using hplaced
  obtain ⟨hdegree, -, hnodup, -⟩ := hmoments _ (.single hround)
  have hfed : "b" ∈ selfFedGraph.adjacency.successorsOf "a" := by decide +kernel
  refine ⟨_, hround, rfl, ?_, ?_, ?_, hnodup⟩
  · rw [hfall "b", if_pos hfed]
  · rw [hdegree]
    decide +kernel
  · decide +kernel

end Graph

end NodeShader
