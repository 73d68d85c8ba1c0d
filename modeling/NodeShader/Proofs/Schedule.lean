import NodeShader.Proofs.Cycles
import NodeShader.Proofs.Failure
import NodeShader.Proofs.Order

/-!
# Schedules

What a schedule holds (`Graph.schedule_ok`, `Graph.mem_order`), in which order
(`Graph.schedule_feedersFirst`), and exactly when there is none
(`Graph.schedule_eq_error_iff`): whether there is a schedule does not depend on pruning.
-/

namespace NodeShader

open Relation (ReflTransGen TransGen)

/-- A part of an order keeps the feeders that it holds first. -/
theorem FeedersFirst.filter {feeds : String → String → Prop} {order : List String}
    (h : FeedersFirst feeds order) (p : String → Bool) :
    FeedersFirst (fun s t => feeds s t ∧ p s = true) (order.filter p) := by
  intro before t after heq s ⟨hst, hp⟩
  obtain ⟨l₁, l₂, rfl, rfl, hl₂⟩ := List.filter_eq_append_iff.mp heq
  obtain ⟨m₁, m₂, rfl, hm₁, -, -⟩ := List.filter_eq_cons_iff.mp hl₂
  have hmem := h (l₁ ++ m₁) t m₂ (by rw [List.append_assoc]) s hst
  rcases List.mem_append.mp hmem with hmem | hmem
  · exact List.mem_filter.mpr ⟨hmem, hp⟩
  · exact absurd hp (hm₁ s hmem)

namespace Graph

variable {r : Registry} {g : Graph} {prune : Bool} {s : Schedule}

theorem mem_outputIds {id : String} :
    id ∈ g.outputIds r ↔ ∃ n ∈ g.nodes, n.id = id ∧ r.isOutputType n.typeId = true := by
  simp only [outputIds, mem_ascendingIds, List.mem_map, List.mem_filter, and_assoc]
  exact exists_congr fun n => and_congr_right fun _ => and_comm

theorem outputIds_subset {id : String} (h : id ∈ g.outputIds r) : id ∈ g.ids := by
  obtain ⟨n, hn, hid, -⟩ := mem_outputIds.mp h
  exact mem_ids.mpr ⟨n, hn, hid⟩

/-- Whether a node of the graph is kept in a schedule with this output. -/
def isKept (r : Registry) (g : Graph) (prune : Bool) (output id : String) : Bool :=
  if prune then (g.adjacency.reaching output).contains id
  else id == output || !(g.outputIds r).contains id

/-- The nodes without a path to the output, apart from other output nodes. -/
def unusedIds (r : Registry) (g : Graph) (output : String) : List String :=
  g.ids.filter fun id => !(g.adjacency.reaching output).contains id && !(g.outputIds r).contains id

/-- What a schedule is made of: the first output node of an order, the nodes of the order that are
kept, and the groups of the nodes that are not used. -/
theorem schedule_eq (h : g.schedule r prune = .ok s) :
    ∃ full, g.topologicalOrder = .ok full ∧
      full.find? (g.outputIds r).contains = some s.output ∧
      s = ⟨full.filter (g.isKept r prune s.output), s.output,
        g.adjacency.connectedGroups (g.unusedIds r s.output)⟩ := by
  obtain ⟨full, hfull, h⟩ := bind_eq_ok.mp h
  refine ⟨full, hfull, ?_⟩
  cases hfind : full.find? (g.outputIds r).contains with
  | none =>
    simp only [hfind] at h
    cases h
  | some output =>
    simp only [hfind, nodes_adjacency] at h
    cases h
    exact ⟨rfl, rfl⟩

/-- A schedule keeps some nodes of an order; the first output node in it is its output. -/
theorem schedule_ok (h : g.schedule r prune = .ok s) :
    ∃ full, g.topologicalOrder = .ok full ∧
      full.find? (g.outputIds r).contains = some s.output ∧
      s.order = full.filter (g.isKept r prune s.output) := by
  obtain ⟨full, hfull, hfind, heq⟩ := schedule_eq h
  exact ⟨full, hfull, hfind, congrArg Schedule.order heq⟩

theorem output_mem_outputIds (h : g.schedule r prune = .ok s) : s.output ∈ g.outputIds r := by
  obtain ⟨full, -, hfind, -⟩ := schedule_ok h
  exact List.contains_iff_mem.mp (List.find?_some hfind)

theorem output_mem_ids (h : g.schedule r prune = .ok s) : s.output ∈ g.ids :=
  outputIds_subset (output_mem_outputIds h)

theorem acyclic_of_schedule (h : g.schedule r prune = .ok s) : g.Acyclic := by
  obtain ⟨full, hfull, -, -⟩ := schedule_ok h
  exact topologicalOrder_isOk_iff.mp ⟨full, hfull⟩

theorem isKept_true {output id : String} (ho : output ∈ g.ids) :
    g.isKept r true output id = true ↔ ReflTransGen g.Feeds id output := by
  simp [isKept, mem_reaching ho]

theorem isKept_false {output id : String} :
    g.isKept r false output id = true ↔ id = output ∨ id ∉ g.outputIds r := by
  simp [isKept]

theorem mem_order (h : g.schedule r prune = .ok s) {id : String} :
    id ∈ s.order ↔ id ∈ g.ids ∧ g.isKept r prune s.output id = true := by
  obtain ⟨full, hfull, -, horder⟩ := schedule_ok h
  rw [horder, List.mem_filter, (topologicalOrder_ok hfull).1.mem_iff]

theorem nodup_order (h : g.schedule r prune = .ok s) : s.order.Nodup := by
  obtain ⟨full, hfull, -, horder⟩ := schedule_ok h
  rw [horder]
  exact ((topologicalOrder_ok hfull).1.nodup_iff.mpr g.nodup_ids).filter _

theorem output_mem_order (h : g.schedule r prune = .ok s) : s.output ∈ s.order := by
  have ho := output_mem_ids h
  refine (mem_order h).mpr ⟨ho, ?_⟩
  cases prune with
  | true => exact (isKept_true ho).mpr .refl
  | false => exact isKept_false.mpr (.inl rfl)

/-- What a schedule keeps stands in it after the kept nodes that feed it. -/
theorem schedule_feedersFirst (h : g.schedule r prune = .ok s) :
    FeedersFirst (fun a b => g.Feeds a b ∧ g.isKept r prune s.output a = true) s.order := by
  obtain ⟨full, hfull, -, horder⟩ := schedule_ok h
  rw [horder]
  exact (topologicalOrder_ok hfull).2.filter _

/-- With pruning, what feeds a kept node is kept. -/
theorem isKept_of_feeds {output a b : String} (ho : output ∈ g.ids) (hab : g.Feeds a b)
    (hb : g.isKept r true output b = true) : g.isKept r true output a = true :=
  (isKept_true ho).mpr (.head hab ((isKept_true ho).mp hb))

/-- No other output node has a path to the output of a schedule. -/
theorem eq_output_of_path (h : g.schedule r prune = .ok s) {id : String}
    (hid : id ∈ g.outputIds r) (hpath : ReflTransGen g.Feeds id s.output) : id = s.output := by
  obtain ⟨full, hfull, hfind, -⟩ := schedule_ok h
  obtain ⟨-, before, after, hsplit, hbefore⟩ := List.find?_eq_some_iff_append.mp hfind
  rcases Relation.reflTransGen_iff_eq_or_transGen.mp hpath with heq | htrans
  · exact heq.symm
  · -- the nodes before the first output node are no output nodes
    have hmem := (topologicalOrder_ok hfull).2.mem_before hsplit htrans
    simpa [hid] using hbefore id hmem

/-- Whether there is a schedule, its output and its unused groups do not depend on pruning. -/
theorem schedule_map_eq (r : Registry) (g : Graph) (prune other : Bool) :
    (g.schedule r prune).map (fun s => (s.output, s.unusedGroups)) =
      (g.schedule r other).map fun s => (s.output, s.unusedGroups) := by
  rw [schedule, schedule]
  cases g.topologicalOrder with
  | error e => rfl
  | ok full =>
    simp only [bind, Except.bind]
    cases full.find? (g.outputIds r).contains <;> rfl

/-- There is no schedule when there is no order or no output node. -/
theorem schedule_eq_error_iff {e : ScheduleError} :
    g.schedule r prune = .error e ↔
      g.topologicalOrder = .error e ∨
        e = .noOutputNode ∧ g.outputIds r = [] ∧ ∃ full, g.topologicalOrder = .ok full := by
  refine bind_eq_error.trans (or_congr_right ?_)
  constructor
  · rintro ⟨full, hfull, h⟩
    cases hfind : full.find? (g.outputIds r).contains with
    | none =>
      simp only [hfind] at h
      cases h
      refine ⟨rfl, List.eq_nil_iff_forall_not_mem.mpr fun id hid => ?_, full, hfull⟩
      have hin := (topologicalOrder_ok hfull).1.mem_iff.mpr (outputIds_subset hid)
      exact List.find?_eq_none.mp hfind id hin (List.contains_iff_mem.mpr hid)
    | some output =>
      simp only [hfind] at h
      cases h
  · rintro ⟨rfl, hnone, full, hfull⟩
    refine ⟨full, hfull, ?_⟩
    have hfind : full.find? (g.outputIds r).contains = none := by simp [hnone]
    simp only [hfind]
    rfl

/-- A graph without an order has a cycle to report. -/
theorem topologicalOrder_eq_error {e : ScheduleError} (h : g.topologicalOrder = .error e) :
    ∃ cycles, e = .cycle cycles ∧ cycles ≠ [] := by
  obtain ⟨left, hleft, rfl⟩ := topologicalOrder_error h
  obtain ⟨t, -, ht⟩ := exists_cycle_of_stuck hleft.nonempty hleft.fed
  obtain ⟨cycle, hcycle, -⟩ := exists_mem_cyclesAmong hleft.ascending ht
  exact ⟨_, rfl, List.ne_nil_of_mem hcycle⟩

end Graph

end NodeShader
