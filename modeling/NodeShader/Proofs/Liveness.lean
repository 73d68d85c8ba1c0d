import NodeShader.Proofs.Validation

/-!
# Live and unused nodes

The output of a schedule is the first output node of the order. A node with a path to it is
live; a node without one that is no output node itself is unused.

* `Graph.pruned_schedule_live`: a pruned schedule holds the live nodes, its output last;
* `Graph.unused_groups_partition`: the unused groups are the connected components of the unused
  nodes, and there is one warning for each of them.
-/

namespace NodeShader

open Relation (ReflTransGen TransGen)

namespace Graph

variable {r : Registry} {g : Graph} {prune : Bool} {s : Schedule}

/-- The id of a node with a type of the output category. -/
def IsOutput (r : Registry) (g : Graph) (id : String) : Prop :=
  ∃ n ∈ g.nodes, n.id = id ∧ ∃ t, r.type? n.typeId = some t ∧ t.category = .output

theorem isOutput_iff {id : String} : g.IsOutput r id ↔ id ∈ g.outputIds r := by
  rw [mem_outputIds]
  refine exists_congr fun n => and_congr_right fun _ => and_congr_right fun _ => ?_
  cases ht : r.type? n.typeId <;> simp [Registry.isOutputType, ht]

/-! ## Pruned schedules -/

/-- The order that a schedule is taken from, split at its first output node. -/
theorem schedule_split (h : g.schedule r prune = .ok s) :
    ∃ before after, g.topologicalOrder = .ok (before ++ s.output :: after) ∧
      (∀ id ∈ before, ¬ g.IsOutput r id) ∧
      s.order = (before ++ s.output :: after).filter (g.isKept r prune s.output) := by
  obtain ⟨full, hfull, hfind, horder⟩ := schedule_ok h
  obtain ⟨-, before, after, rfl, hbefore⟩ := List.find?_eq_some_iff_append.mp hfind
  refine ⟨before, after, hfull, fun id hid hout => ?_, horder⟩
  simpa [isOutput_iff.mp hout] using hbefore id hid

/-- In an order, no node after another one has a path to it. -/
theorem not_path_of_after {before after : List String} {id target : String}
    (h : g.topologicalOrder = .ok (before ++ target :: after)) (hid : id ∈ after) :
    ¬ ReflTransGen g.Feeds id target := by
  obtain ⟨hperm, hfirst⟩ := topologicalOrder_ok h
  have hnodup := hperm.nodup_iff.mpr g.nodup_ids
  obtain ⟨-, htail, hdisjoint⟩ := List.nodup_append.mp hnodup
  intro hpath
  rcases Relation.reflTransGen_iff_eq_or_transGen.mp hpath with rfl | htrans
  · exact (List.nodup_cons.mp htail).1 hid
  · have hbefore : id ∈ before := hfirst.mem_before rfl htrans
    exact hdisjoint id hbefore id (List.mem_cons_of_mem _ hid) rfl

/-- A pruned schedule ends with its output. -/
theorem pruned_getLast? (h : g.schedule r true = .ok s) : s.order.getLast? = some s.output := by
  obtain ⟨before, after, hfull, -, horder⟩ := schedule_split h
  have ho : s.output ∈ g.ids := output_mem_ids h
  have hkept : g.isKept r true s.output s.output = true := (isKept_true ho).mpr .refl
  have hafter : after.filter (g.isKept r true s.output) = [] :=
    List.filter_eq_nil_iff.mpr fun id hid hk =>
      not_path_of_after hfull hid ((isKept_true ho).mp hk)
  rw [horder, List.filter_append, List.filter_cons_of_pos hkept, hafter, List.getLast?_concat]

theorem mem_pruned_order (h : g.schedule r true = .ok s) {id : String} :
    id ∈ s.order ↔ ReflTransGen g.Feeds id s.output := by
  rw [mem_order h, isKept_true (output_mem_ids h), and_iff_right_iff_imp]
  exact mem_ids_of_path (output_mem_ids h)

/-- A schedule with pruning is the live part of the graph: its output is the first output node in
order, it holds the nodes with a path to the output, each once and after all nodes that feed it,
and the output, which comes last, is the only output node in it. -/
theorem pruned_schedule_live (h : g.schedule r true = .ok s) :
    (∃ before after, g.topologicalOrder = .ok (before ++ s.output :: after) ∧
      g.IsOutput r s.output ∧ ∀ id ∈ before, ¬ g.IsOutput r id) ∧
    s.order.Nodup ∧ (∀ id, id ∈ s.order ↔ ReflTransGen g.Feeds id s.output) ∧
    FeedersFirst g.Feeds s.order ∧ s.order.getLast? = some s.output ∧
    ∀ id ∈ s.order, g.IsOutput r id ↔ id = s.output := by
  have hout : g.IsOutput r s.output := isOutput_iff.mpr (output_mem_outputIds h)
  obtain ⟨before, after, hfull, hbefore, -⟩ := schedule_split h
  refine ⟨⟨before, after, hfull, hout, hbefore⟩, nodup_order h, fun _ => mem_pruned_order h, ?_,
    pruned_getLast? h, fun id hid => ⟨fun hi => ?_, fun heq => heq ▸ hout⟩⟩
  · intro first t last hsplit a hat
    have ht : t ∈ s.order := hsplit ▸ List.mem_append_right _ List.mem_cons_self
    have ho := output_mem_ids h
    exact schedule_feedersFirst h first t last hsplit a
      ⟨hat, isKept_of_feeds ho hat ((mem_order h).mp ht).2⟩
  · exact eq_output_of_path h (isOutput_iff.mp hi) ((mem_pruned_order h).mp hid)

/-- Two output nodes, and unused nodes at each of them and on their own. -/
def spareGraph : Graph :=
  { nodes := [⟨"p", "fragment_output", ∅⟩, ⟨"o", "fragment_output", ∅⟩, ⟨"k", "rgb_to_hsv", ∅⟩,
      ⟨"h", "rgb_to_hsv", ∅⟩, ⟨"c", "color_picker", ∅⟩, ⟨"n", "perlin_noise", ∅⟩,
      ⟨"m", "mouse_input", ∅⟩]
    edges := [⟨"1", "c", none, "o", none⟩, ⟨"2", "c", none, "h", none⟩,
      ⟨"3", "h", none, "p", none⟩, ⟨"4", "c", none, "k", none⟩, ⟨"5", "m", none, "n", none⟩] }

theorem spare_pruned_schedule :
    ∃ s, spareGraph.schedule .catalog true = .ok s ∧ s.order = ["c", "o"] ∧
      s.order.Nodup ∧ (∀ id, id ∈ s.order ↔ ReflTransGen spareGraph.Feeds id "o") ∧
      FeedersFirst spareGraph.Feeds s.order ∧ s.order.getLast? = some "o" := by
  have hs : spareGraph.schedule .catalog true =
      .ok ⟨["c", "o"], "o", [["h"], ["k"], ["m", "n"]]⟩ := by
    decide +kernel
  obtain ⟨-, hnodup, hmem, hfirst, hlast, -⟩ := pruned_schedule_live hs
  exact ⟨_, hs, rfl, hnodup, hmem, hfirst, hlast⟩

/-! ## Connected groups -/

/-- Two of some nodes with an edge between them, in either direction. -/
def Linked (g : Graph) (p : String → Prop) (a b : String) : Prop :=
  p a ∧ p b ∧ (g.Feeds a b ∨ g.Feeds b a)

theorem linked_equivalence (g : Graph) (p : String → Prop) :
    Equivalence (ReflTransGen (g.Linked p)) where
  refl _ := .refl
  symm h := by
    refine Relation.reflTransGen_swap.mp (ReflTransGen.mono ?_ _ _ h)
    exact fun _ _ hstep => ⟨hstep.2.1, hstep.1, hstep.2.2.symm⟩
  trans h₁ h₂ := h₁.trans h₂

/-- A search over neighbours finds the nodes that are joined to the first one. -/
theorem mem_neighbours {members : List String} {id : String} {rest : List String}
    (hw : Whole (ReflTransGen (g.Linked (· ∈ members))) members (id :: rest)) {x : String} :
    x ∈ reachable (fun id => g.adjacency.predecessorsOf id ++ g.adjacency.successorsOf id) rest
        [id] ↔ ReflTransGen (g.Linked (· ∈ members)) id x := by
  simp only [mem_reachable, List.mem_singleton, exists_eq_left, List.mem_append,
    mem_predecessorsOf, mem_successorsOf]
  constructor
  · intro h
    have hmembers := reflTransGen_among (hw.subset _ List.mem_cons_self)
      (fun y hy => hw.subset y (List.mem_cons_of_mem _ hy)) h
    exact ReflTransGen.mono (fun _ _ h => ⟨h.2.1, h.2.2, h.1.symm⟩) _ _ hmembers
  · intro h
    have hwhole (y : String) (hy : ReflTransGen (g.Linked (· ∈ members)) id y)
        (_ : ReflTransGen (g.Linked (· ∈ members)) y id) : y = id ∨ y ∈ rest :=
      hw.mem_of_reflTransGen (fun _ _ hstep => hstep.2.1) hy hy
    have hwithin := reflTransGen_within hwhole h ((g.linked_equivalence _).symm h)
    exact ReflTransGen.mono (fun _ _ h => ⟨h.1.2.2.symm, h.2⟩) _ _ hwithin

variable {members group : List String}

theorem mem_connectedGroups (hm : members.Pairwise (· < ·)) :
    group ∈ g.adjacency.connectedGroups members ↔
      group.Pairwise (· < ·) ∧ ∃ id ∈ group,
        ∀ x, x ∈ group ↔ x ∈ members ∧ ReflTransGen (g.Linked (· ∈ members)) id x :=
  mem_groups (g.linked_equivalence _) (fun _ _ hw _ _ => mem_neighbours hw) hm

/-- The groups hold the members and nothing else. -/
theorem exists_connectedGroup {id : String} :
    (∃ group ∈ g.adjacency.connectedGroups members, id ∈ group) ↔ id ∈ members := by
  constructor
  · rintro ⟨group, hg, hid⟩
    exact (groups_sublist group hg).2.subset hid
  · exact groups_cover id

/-- No two groups have a member in common. -/
theorem connectedGroup_unique (hm : members.Pairwise (· < ·)) {a b : List String} {id : String}
    (ha : a ∈ g.adjacency.connectedGroups members) (hb : b ∈ g.adjacency.connectedGroups members)
    (hia : id ∈ a) (hib : id ∈ b) : a = b := by
  obtain ⟨hasc, _, -, hclass⟩ := (mem_connectedGroups hm).mp ha
  obtain ⟨hasc', _, -, hclass'⟩ := (mem_connectedGroups hm).mp hb
  exact eq_of_common (g.linked_equivalence _) hasc hasc' hclass hclass' hia hib

/-- Two members are in one group exactly if they are joined. -/
theorem exists_connectedGroup_iff (hm : members.Pairwise (· < ·)) {a b : String}
    (ha : a ∈ members) (hb : b ∈ members) :
    (∃ group ∈ g.adjacency.connectedGroups members, a ∈ group ∧ b ∈ group) ↔
      ReflTransGen (g.Linked (· ∈ members)) a b := by
  have heq := g.linked_equivalence (· ∈ members)
  constructor
  · rintro ⟨group, hg, hag, hbg⟩
    obtain ⟨-, id, -, hclass⟩ := (mem_connectedGroups hm).mp hg
    exact heq.trans (heq.symm ((hclass a).mp hag).2) ((hclass b).mp hbg).2
  · intro hab
    obtain ⟨group, hg, hag⟩ := exists_connectedGroup.mpr ha
    obtain ⟨-, id, -, hclass⟩ := (mem_connectedGroups hm).mp hg
    exact ⟨group, hg, hag, (hclass b).mpr ⟨hb, heq.trans ((hclass a).mp hag).2 hab⟩⟩

/-! ## Unused nodes -/

/-- A node without a path to the output that is no output node itself. -/
structure Unused (r : Registry) (g : Graph) (output id : String) : Prop where
  mem_ids : id ∈ g.ids
  no_path : ¬ ReflTransGen g.Feeds id output
  no_output : ¬ g.IsOutput r id

theorem mem_unusedIds {output id : String} (ho : output ∈ g.ids) :
    id ∈ g.unusedIds r output ↔ g.Unused r output id := by
  simp only [unusedIds, List.mem_filter, Bool.and_eq_true, Bool.not_eq_true',
    List.contains_eq_mem, decide_eq_false_iff_not, mem_reaching ho, ← isOutput_iff]
  exact ⟨fun h => ⟨h.1, h.2.1, h.2.2⟩, fun h => ⟨h.1, h.2, h.3⟩⟩

theorem unusedGroups_eq (h : g.schedule r prune = .ok s) :
    s.unusedGroups = g.adjacency.connectedGroups (g.unusedIds r s.output) := by
  obtain ⟨full, -, -, heq⟩ := schedule_eq h
  exact congrArg Schedule.unusedGroups heq

theorem unusedIds_pairwise (r : Registry) (g : Graph) (output : String) :
    (g.unusedIds r output).Pairwise (· < ·) :=
  (pairwise_ascendingIds (g.nodes.map Node.id)).filter _

theorem kind_unusedGroup (ids : List String) : (unusedGroup ids).kind = .unusedNodes := by
  unfold unusedGroup
  split <;> rfl

/-- All checks but that of the plan report errors only. -/
theorem validate_split (r : Registry) (g : Graph) :
    ∃ first, g.validate r = first ++ g.planProblems r ∧ errorsOf first = first := by
  refine ⟨_, rfl, ?_⟩
  have hmissing : errorsOf
      (if g.outputCount r = 0 then ScheduleError.noOutputNode.diagnostics else []) =
        if g.outputCount r = 0 then ScheduleError.noOutputNode.diagnostics else [] := by
    split <;> rfl
  simp only [errorsOf_append, errorsOf_duplicateIds, errorsOf_unknownTypes,
    errorsOf_unresolvedEdges, errorsOf_unconnectedInputs, errorsOf_crowdedInputs,
    errorsOf_typeMismatches, errorsOf_invalidParameters, hmissing]

/-- Errors are not about unused nodes. -/
theorem filter_unusedNodes_of_errors {part : List Diagnostic} (h : errorsOf part = part) :
    part.filter (fun d => d.kind == .unusedNodes) = [] := by
  refine List.filter_eq_nil_iff.mpr fun d hd hkind => ?_
  have herror : d.isError = true := List.filter_eq_self.mp h d hd
  rw [Diagnostic.isError, Diagnostic.severity, eq_of_beq hkind] at herror
  cases herror

theorem filter_unusedNodes_planProblems (h : g.schedule r true = .ok s) :
    (g.planProblems r).filter (fun d => d.kind == .unusedNodes) =
      s.unusedGroups.map unusedGroup := by
  have hall (ids : List String) : ((unusedGroup ids).kind == .unusedNodes) = true :=
    beq_iff_eq.mpr (kind_unusedGroup ids)
  simp only [planProblems, h, List.filter_append, List.filter_map, Function.comp_def, hall,
    List.filter_true]
  -- a warning about several output nodes is of another kind
  split <;> rfl

/-- The warnings about unused nodes are those about the groups of a schedule, in their order. -/
theorem filter_unusedNodes_validate (h : g.schedule r prune = .ok s) :
    (g.validate r).filter (fun d => d.kind == .unusedNodes) =
      s.unusedGroups.map unusedGroup := by
  obtain ⟨pruned, hpruned, hgroups⟩ :
      ∃ pruned, g.schedule r true = .ok pruned ∧ pruned.unusedGroups = s.unusedGroups := by
    have hsame := schedule_map_eq r g true prune
    rw [h] at hsame
    obtain ⟨pruned, hpruned, heq⟩ := map_eq_ok.mp hsame
    exact ⟨pruned, hpruned, congrArg Prod.snd heq⟩
  obtain ⟨first, hsplit, herrors⟩ := g.validate_split r
  rw [hsplit, List.filter_append, filter_unusedNodes_of_errors herrors, List.nil_append,
    filter_unusedNodes_planProblems hpruned, hgroups]

/-- The groups hold the unused nodes, each in one of them. -/
theorem exists_unusedGroup (h : g.schedule r prune = .ok s) {id : String} :
    (∃ group ∈ s.unusedGroups, id ∈ group) ↔ g.Unused r s.output id := by
  rw [unusedGroups_eq h, exists_connectedGroup, mem_unusedIds (output_mem_ids h)]

theorem existsUnique_unusedGroup (h : g.schedule r prune = .ok s) {id : String}
    (hid : g.Unused r s.output id) : ∃! group, group ∈ s.unusedGroups ∧ id ∈ group := by
  obtain ⟨group, hg, hin⟩ := (exists_unusedGroup h).mpr hid
  refine ⟨group, ⟨hg, hin⟩, fun other hother => ?_⟩
  rw [unusedGroups_eq h] at hg hother
  exact connectedGroup_unique (g.unusedIds_pairwise r s.output) hother.1 hg hother.2 hin

/-- Two unused nodes are in one group exactly if a chain of edges between unused nodes joins
them. -/
theorem same_unusedGroup_iff (h : g.schedule r prune = .ok s) {a b : String}
    (ha : g.Unused r s.output a) (hb : g.Unused r s.output b) :
    (∃ group ∈ s.unusedGroups, a ∈ group ∧ b ∈ group) ↔
      ReflTransGen (g.Linked (g.Unused r s.output)) a b := by
  have hmem : (· ∈ g.unusedIds r s.output) = g.Unused r s.output :=
    funext fun _ => propext (mem_unusedIds (output_mem_ids h))
  have ho := output_mem_ids h
  rw [unusedGroups_eq h, exists_connectedGroup_iff (g.unusedIds_pairwise r s.output)
    ((mem_unusedIds ho).mpr ha) ((mem_unusedIds ho).mpr hb), hmem]

/-- The unused groups of a schedule partition the unused nodes by connectivity: a node has a path
to the output, is another output node or is in exactly one group; the groups are the components of
the unused nodes under edges of either direction, each ascending, in the order of their first ids;
and there is one warning for each group. -/
theorem unused_groups_partition (h : g.schedule r prune = .ok s) :
    (∀ id ∈ g.ids,
      (ReflTransGen g.Feeds id s.output ∧ ¬ (g.IsOutput r id ∧ id ≠ s.output) ∧
        ∀ group ∈ s.unusedGroups, id ∉ group) ∨
      (¬ ReflTransGen g.Feeds id s.output ∧ (g.IsOutput r id ∧ id ≠ s.output) ∧
        ∀ group ∈ s.unusedGroups, id ∉ group) ∨
      (¬ ReflTransGen g.Feeds id s.output ∧ ¬ (g.IsOutput r id ∧ id ≠ s.output) ∧
        ∃! group, group ∈ s.unusedGroups ∧ id ∈ group)) ∧
    (∀ id, (∃ group ∈ s.unusedGroups, id ∈ group) ↔ g.Unused r s.output id) ∧
    (∀ a b, g.Unused r s.output a → g.Unused r s.output b →
      ((∃ group ∈ s.unusedGroups, a ∈ group ∧ b ∈ group) ↔
        ReflTransGen (g.Linked (g.Unused r s.output)) a b)) ∧
    (∀ group ∈ s.unusedGroups, group ≠ [] ∧ group.Pairwise (· < ·)) ∧
    (s.unusedGroups.Pairwise fun a b => ∃ x y, a.head? = some x ∧ b.head? = some y ∧ x < y) ∧
    (g.validate r).filter (fun d => d.kind == .unusedNodes) =
      s.unusedGroups.map unusedGroup := by
  have hasc := g.unusedIds_pairwise r s.output
  refine ⟨fun id hid => ?_, fun _ => exists_unusedGroup h,
    fun _ _ ha hb => same_unusedGroup_iff h ha hb, fun group hg => ?_, ?_,
    filter_unusedNodes_validate h⟩
  · -- only unused nodes are in groups
    have hnone (hn : ¬ g.Unused r s.output id) : ∀ group ∈ s.unusedGroups, id ∉ group :=
      fun group hg hin => hn ((exists_unusedGroup h).mp ⟨group, hg, hin⟩)
    by_cases hpath : ReflTransGen g.Feeds id s.output
    · refine .inl ⟨hpath, fun hout => hout.2 ?_, hnone fun hn => hn.no_path hpath⟩
      exact eq_output_of_path h (isOutput_iff.mp hout.1) hpath
    by_cases hout : g.IsOutput r id
    · have hne : id ≠ s.output := fun heq => hpath (heq ▸ .refl)
      exact .inr (.inl ⟨hpath, ⟨hout, hne⟩, hnone fun hn => hn.no_output hout⟩)
    · exact .inr (.inr ⟨hpath, fun ho => hout ho.1,
        existsUnique_unusedGroup h ⟨hid, hpath, hout⟩⟩)
  · rw [unusedGroups_eq h] at hg
    exact ⟨(groups_sublist group hg).1, ((mem_connectedGroups hasc).mp hg).1⟩
  · rw [unusedGroups_eq h]
    exact groups_heads hasc

theorem spare_unused_groups :
    ∃ s, spareGraph.schedule .catalog false = .ok s ∧
      s.unusedGroups = [["h"], ["k"], ["m", "n"]] ∧
      ¬ ReflTransGen (spareGraph.Linked (spareGraph.Unused .catalog s.output)) "h" "k" ∧
      ReflTransGen (spareGraph.Linked (spareGraph.Unused .catalog s.output)) "m" "n" ∧
      (spareGraph.validate .catalog).filter (fun d => d.kind == .unusedNodes) =
        [unusedGroup ["h"], unusedGroup ["k"], unusedGroup ["m", "n"]] := by
  have hs : spareGraph.schedule .catalog false =
      .ok ⟨["c", "h", "k", "m", "n", "o"], "o", [["h"], ["k"], ["m", "n"]]⟩ := by
    decide +kernel
  obtain ⟨-, hgroups, hsame, -, -, hwarnings⟩ := unused_groups_partition hs
  have hunused (id : String) (hid : id ∈ ["h", "k", "m", "n"]) :
      spareGraph.Unused .catalog "o" id := by
    refine (hgroups id).mp ?_
    simp only [List.mem_cons, List.not_mem_nil, or_false] at hid
    rcases hid with rfl | rfl | rfl | rfl <;> simp
  refine ⟨_, hs, rfl, fun hjoined => ?_, ?_, hwarnings⟩
  · obtain ⟨group, hg, hh, hk⟩ :=
      (hsame "h" "k" (hunused _ (by decide)) (hunused _ (by decide))).mpr hjoined
    simp only [List.mem_cons, List.not_mem_nil, or_false] at hg
    rcases hg with rfl | rfl | rfl <;> simp at hh hk
  · exact (hsame "m" "n" (hunused _ (by decide)) (hunused _ (by decide))).mp
      ⟨["m", "n"], by simp, by simp, by simp⟩

end Graph

end NodeShader
