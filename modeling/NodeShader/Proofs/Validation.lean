import NodeShader.Compiler
import NodeShader.Proofs.Connection
import NodeShader.Proofs.Schedule

/-!
# Validation

What each check of `Graph.validate` reports, and that a graph without errors is exactly a
well-formed one.

The checks look at the first node of every id only (`Graph.mem_typedNodes`), and an edge at a
node of unknown type is not reported at all; that all nodes and edges are in order follows
from the checks together (`Graph.resolve_of_noErrors`).

* `Graph.WellFormed`: what a graph must be, without regard to the checks;
* `Graph.noErrors_iff_wellFormed`: there is no error exactly for such graphs.
-/

namespace NodeShader

open Relation (TransGen)

/-- The edge leads from an output of one node of the graph to the input at a position of
another: its nodes have known types, and its handles mean these ports. -/
inductive Edge.Joins (r : Registry) (g : Graph) (e : Edge) : Port → Nat → Port → Prop
  | intro {source target : Node} {sourceType targetType : NodeType} {i j : Nat}
      {output input : Port} :
      source ∈ g.nodes → source.id = e.source → r.type? source.typeId = some sourceType →
      target ∈ g.nodes → target.id = e.target → r.type? target.typeId = some targetType →
      resolveHandle sourceType.outputs .output e.sourcePort = some i →
      sourceType.outputs[i]? = some output →
      resolveHandle targetType.inputs .input e.targetPort = some j →
      targetType.inputs[j]? = some input →
      Joins r g e output j input

namespace Graph

variable {r : Registry} {g : Graph} {n : Node} {t : NodeType}

/-- The edges into the input at a position of a node of type `t`. -/
def arrivals (g : Graph) (t : NodeType) (id : String) (index : Nat) : List Edge :=
  g.edges.filter fun e =>
    e.target == id && resolveHandle t.inputs .input e.targetPort == some index

/-- A graph that can be compiled. -/
structure WellFormed (r : Registry) (g : Graph) : Prop where
  ids_nodup : (g.nodes.map Node.id).Nodup
  types_known : ∀ n ∈ g.nodes, ∃ t, r.type? n.typeId = some t
  edges_join : ∀ e ∈ g.edges, ∃ output index input, e.Joins r g output index input
  types_match : ∀ e ∈ g.edges, ∀ output index input, e.Joins r g output index input →
    output.type.connectsTo input.type = true
  inputs_single : ∀ n ∈ g.nodes, ∀ t, r.type? n.typeId = some t →
    ∀ index < t.inputs.length, (g.arrivals t n.id index).length ≤ 1
  inputs_connected : ∀ n ∈ g.nodes, ∀ t, r.type? n.typeId = some t →
    ∀ index port, t.inputs[index]? = some port → port.isRequired = true →
      (g.arrivals t n.id index).length = 1
  parameters_fit : ∀ n ∈ g.nodes, ∀ t, r.type? n.typeId = some t →
    ∀ name value, (name, value) ∈ n.parameters.entries →
      ∃ p literal, t.parameter? name = some p ∧ p.resolve value = .ok literal
  has_output : ∃ n ∈ g.nodes, ∃ t, r.type? n.typeId = some t ∧ t.category = .output
  acyclic : ∀ id, ¬ TransGen (fun a b => ∃ e ∈ g.edges, e.source = a ∧ e.target = b) id id

/-! ## Nodes and connections -/

theorem mem_distinctNodes : n ∈ g.distinctNodes ↔ g.node? n.id = some n := by
  rw [distinctNodes, List.mem_filterMap]
  constructor
  · rintro ⟨id, -, h⟩
    rw [node?_id h]
    exact h
  · exact fun h => ⟨n.id, exists_node?_iff.mp ⟨n, h⟩, h⟩

theorem mem_typedNodes :
    (n, t) ∈ g.typedNodes r ↔ g.node? n.id = some n ∧ r.type? n.typeId = some t := by
  simp only [typedNodes, List.mem_filterMap, Option.map_eq_some_iff, Prod.mk.injEq,
    mem_distinctNodes]
  constructor
  · rintro ⟨m, hm, u, hu, rfl, rfl⟩
    exact ⟨hm, hu⟩
  · rintro ⟨hn, ht⟩
    exact ⟨n, hn, t, ht, rfl, rfl⟩

theorem mem_connections {c : Connection} :
    c ∈ g.connections r ↔ ∃ e ∈ g.edges, e.resolve r g = .ok c := by
  simp only [connections, List.mem_filterMap, mem_sortedEdges]
  refine exists_congr fun e => and_congr_right fun _ => ?_
  cases e.resolve r g <;> simp [Except.toOption]

theorem mem_connectionsInto {connections : List Connection} {id : String} {index : Nat}
    {c : Connection} :
    c ∈ connectionsInto connections id index ↔
      c ∈ connections ∧ c.target = id ∧ c.targetIndex = index := by
  simp [connectionsInto]

/-- A connection ends at an input of a node of known type. -/
theorem exists_typedNode_of_mem_connections {c : Connection} (hc : c ∈ g.connections r) :
    ∃ n t, (n, t) ∈ g.typedNodes r ∧ n.id = c.target ∧ c.targetIndex < t.inputs.length ∧
      t.inputs[c.targetIndex]? = some c.targetPort := by
  obtain ⟨e, -, hr⟩ := mem_connections.mp hc
  obtain ⟨source, t, i, -, ht, -, -, hj, hp, -, htarget⟩ := Edge.resolve_eq_ok_iff.mp hr
  obtain ⟨n, hn, ht⟩ := typeOf?_eq_some_iff.mp ht
  have hid := node?_id hn
  refine ⟨n, t, mem_typedNodes.mpr ⟨?_, ht⟩, hid.trans htarget.symm, resolveHandle_lt hj, hp⟩
  rw [hid]
  exact hn

theorem mem_connectedInputs {id : String} {into : List Connection} :
    (id, into) ∈ g.connectedInputs r ↔
      ∃ n t index, (n, t) ∈ g.typedNodes r ∧ index < t.inputs.length ∧ n.id = id ∧
        into = connectionsInto (g.connections r) n.id index ∧ into ≠ [] := by
  simp only [connectedInputs, List.mem_flatMap, List.mem_filterMap, List.mem_range, Prod.exists]
  constructor
  · rintro ⟨n, t, hnt, index, hi, h⟩
    split at h
    · cases h
    · rename_i hne
      cases h
      exact ⟨n, t, index, hnt, hi, rfl, rfl, hne⟩
  · rintro ⟨n, t, index, hnt, hi, rfl, rfl, hne⟩
    refine ⟨n, t, hnt, index, hi, ?_⟩
    split
    · rename_i h
      exact absurd h hne
    · rfl

/-- A connection is listed with its input. -/
theorem mem_connectedInputs_of_mem {c : Connection} (hc : c ∈ g.connections r) :
    (c.target, connectionsInto (g.connections r) c.target c.targetIndex) ∈
      g.connectedInputs r := by
  obtain ⟨n, t, hnt, hid, hi, -⟩ := exists_typedNode_of_mem_connections hc
  refine mem_connectedInputs.mpr ⟨n, t, c.targetIndex, hnt, hi, hid, by rw [hid], ?_⟩
  exact List.ne_nil_of_mem (mem_connectionsInto.mpr ⟨hc, rfl, rfl⟩)

/-! ## The checks, one by one -/

theorem duplicateIds_eq_nil_iff : g.duplicateIds = [] ↔ (g.nodes.map Node.id).Nodup := by
  simp only [duplicateIds, List.filterMap_eq_nil_iff, ite_eq_right_iff, reduceCtorEq, imp_false,
    Nat.not_lt, List.nodup_iff_count_le_one]
  constructor
  · intro h id
    by_cases hid : id ∈ g.ids
    · rw [List.count, List.countP_map]
      exact h id hid
    · rw [List.count_eq_zero_of_not_mem]
      · exact Nat.zero_le 1
      · simpa [ids] using hid
  · intro h id _
    have := h id
    rwa [List.count, List.countP_map] at this

theorem unknownTypes_eq_nil_iff :
    g.unknownTypes r = [] ↔ ∀ n ∈ g.distinctNodes, ∃ t, r.type? n.typeId = some t := by
  simp only [unknownTypes, List.filterMap_eq_nil_iff, ite_eq_right_iff, reduceCtorEq, imp_false,
    Option.isNone_iff_eq_none, ← Option.isSome_iff_exists, Option.isSome_iff_ne_none, ne_eq]

theorem unresolvedEdges_eq_nil_iff :
    g.unresolvedEdges r = [] ↔
      ∀ e ∈ g.edges, (∃ c, e.resolve r g = .ok c) ∨ e.resolve r g = .error .unknownType := by
  simp only [unresolvedEdges, List.filterMap_eq_nil_iff, mem_sortedEdges]
  refine forall₂_congr fun e _ => ?_
  cases e.resolve r g with
  | ok c => simp
  | error p =>
    cases p with
    | unknownNode id => simp [ConnectionError.diagnostic?]
    | unknownType => simp [ConnectionError.diagnostic?]
    | unknownPort id d handle => cases handle <;> simp [ConnectionError.diagnostic?]

theorem unconnectedInputs_eq_nil_iff :
    g.unconnectedInputs r = [] ↔
      ∀ n t, (n, t) ∈ g.typedNodes r → ∀ index port, t.inputs[index]? = some port →
        port.isRequired = true → connectionsInto (g.connections r) n.id index ≠ [] := by
  simp only [unconnectedInputs, List.flatMap_eq_nil_iff, List.filterMap_eq_nil_iff, Prod.forall,
    ite_eq_right_iff, reduceCtorEq, imp_false, Bool.and_eq_true, List.isEmpty_iff, not_and,
    List.mk_mem_zipIdx_iff_getElem?]
  exact forall₃_congr fun _ _ _ => forall_comm

theorem crowdedInputs_eq_nil_iff :
    g.crowdedInputs r = [] ↔
      ∀ n t, (n, t) ∈ g.typedNodes r → ∀ index < t.inputs.length,
        (connectionsInto (g.connections r) n.id index).length ≤ 1 := by
  simp only [crowdedInputs, List.filterMap_eq_nil_iff, Prod.forall, mem_connectedInputs]
  constructor
  · intro h n t hnt index hi
    match hinto : connectionsInto (g.connections r) n.id index with
    | [] | [_] => simp
    | a :: b :: rest =>
      have := h n.id (a :: b :: rest) ⟨n, t, index, hnt, hi, rfl, hinto.symm, by simp⟩
      cases this
  · rintro h id into ⟨n, t, index, hnt, hi, rfl, rfl, -⟩
    have := h n t hnt index hi
    split
    · rename_i heq
      simp [heq] at this
    · rfl

theorem typeMismatches_eq_nil_iff :
    g.typeMismatches r = [] ↔
      ∀ c ∈ g.connections r, c.sourcePort.type.connectsTo c.targetPort.type = true := by
  simp only [typeMismatches, List.flatMap_eq_nil_iff, List.filterMap_eq_nil_iff, Prod.forall,
    ite_eq_left_iff, reduceCtorEq, imp_false, Bool.not_eq_true, Bool.not_eq_false]
  constructor
  · exact fun h c hc => h _ _ (mem_connectedInputs_of_mem hc) c
      (mem_connectionsInto.mpr ⟨hc, rfl, rfl⟩)
  · intro h id into hinto c hc
    obtain ⟨n, t, index, -, -, -, rfl, -⟩ := mem_connectedInputs.mp hinto
    exact h c (mem_connectionsInto.mp hc).1

theorem parameterProblem?_eq_none_iff {name : String} {value : ParameterValue} :
    parameterProblem? t name value = none ↔
      ∃ p literal, t.parameter? name = some p ∧ p.resolve value = .ok literal := by
  rw [parameterProblem?]
  cases t.parameter? name with
  | none => simp
  | some p => cases h : p.resolve value <;> simp [h]

theorem invalidParameters_eq_nil_iff :
    g.invalidParameters r = [] ↔
      ∀ n t, (n, t) ∈ g.typedNodes r → ∀ name value, (name, value) ∈ n.parameters.entries →
        ∃ p literal, t.parameter? name = some p ∧ p.resolve value = .ok literal := by
  simp only [invalidParameters, List.flatMap_eq_nil_iff, List.filterMap_eq_nil_iff, Prod.forall,
    Option.map_eq_none_iff, parameterProblem?_eq_none_iff]

theorem outputCount_ne_zero_iff :
    g.outputCount r ≠ 0 ↔ ∃ n t, (n, t) ∈ g.typedNodes r ∧ t.category = .output := by
  rw [outputCount, ← Nat.pos_iff_ne_zero, List.countP_pos_iff]
  simp

theorem several_isWarning {d : Diagnostic} {count : Nat} {message : String} {id : Option String}
    (hd : d ∈ if 1 < count then [⟨.multipleOutputNodes, message, id, none⟩] else []) :
    d.isError = false := by
  split at hd
  · rw [List.mem_singleton.mp hd]
    rfl
  · cases hd

theorem unusedGroup_isWarning (ids : List String) : (unusedGroup ids).isError = false := by
  unfold unusedGroup
  split <;> rfl

/-- The plan of a graph has an error exactly when the graph has a cycle. -/
theorem errorsOf_planProblems_eq_nil_iff : errorsOf (g.planProblems r) = [] ↔ g.Acyclic := by
  rw [errorsOf, List.filter_eq_nil_iff]
  cases hs : g.schedule r true with
  | ok s =>
    refine iff_of_true (fun d hd => ?_) (acyclic_of_schedule hs)
    simp only [planProblems, hs, List.mem_append, List.mem_map] at hd
    rcases hd with hd | ⟨ids, -, rfl⟩
    · simp [several_isWarning hd]
    · simp [unusedGroup_isWarning]
  | error e =>
    rcases schedule_eq_error_iff.mp hs with ho | ⟨rfl, -, full, ho⟩
    · obtain ⟨cycles, rfl, hne⟩ := topologicalOrder_eq_error ho
      refine iff_of_false (fun h => ?_) fun hg => ?_
      · obtain ⟨ids, hids⟩ := List.exists_mem_of_ne_nil cycles hne
        refine h ⟨.cycle, "cycle between nodes: " ++ ", ".intercalate ids, none, none⟩ ?_ rfl
        simp only [planProblems, hs, ScheduleError.diagnostics]
        exact List.mem_append_right _ (List.mem_map.mpr ⟨ids, hids, rfl⟩)
      · obtain ⟨order, horder⟩ := topologicalOrder_isOk_iff.mpr hg
        rw [horder] at ho
        cases ho
    · refine iff_of_true (fun d hd => ?_) (topologicalOrder_isOk_iff.mp ⟨full, ho⟩)
      simp only [planProblems, hs] at hd
      cases hd

/-! ## The checks together -/

theorem errorsOf_append (xs ys : List Diagnostic) :
    errorsOf (xs ++ ys) = errorsOf xs ++ errorsOf ys := List.filter_append xs ys

theorem errorsOf_duplicateIds : errorsOf g.duplicateIds = g.duplicateIds := by
  refine List.filter_eq_self.mpr fun d hd => ?_
  obtain ⟨id, -, h⟩ := List.mem_filterMap.mp hd
  dsimp only at h
  split at h <;> cases h
  rfl

theorem errorsOf_unknownTypes : errorsOf (g.unknownTypes r) = g.unknownTypes r := by
  refine List.filter_eq_self.mpr fun d hd => ?_
  obtain ⟨n, -, h⟩ := List.mem_filterMap.mp hd
  split at h <;> cases h
  rfl

theorem isError_of_diagnostic? {p : ConnectionError} {d : Diagnostic}
    (h : p.diagnostic? = some d) : d.isError = true := by
  cases p with
  | unknownNode id => cases h; rfl
  | unknownType => cases h
  | unknownPort id direction handle => cases handle <;> (cases h; rfl)

theorem errorsOf_unresolvedEdges : errorsOf (g.unresolvedEdges r) = g.unresolvedEdges r := by
  refine List.filter_eq_self.mpr fun d hd => ?_
  obtain ⟨e, -, h⟩ := List.mem_filterMap.mp hd
  split at h
  · cases h
  · exact isError_of_diagnostic? h

theorem errorsOf_unconnectedInputs :
    errorsOf (g.unconnectedInputs r) = g.unconnectedInputs r := by
  refine List.filter_eq_self.mpr fun d hd => ?_
  obtain ⟨⟨n, t⟩, -, h⟩ := List.mem_flatMap.mp hd
  obtain ⟨⟨port, index⟩, -, h⟩ := List.mem_filterMap.mp h
  dsimp only at h
  split at h <;> cases h
  rfl

theorem errorsOf_crowdedInputs : errorsOf (g.crowdedInputs r) = g.crowdedInputs r := by
  refine List.filter_eq_self.mpr fun d hd => ?_
  obtain ⟨⟨id, into⟩, -, h⟩ := List.mem_filterMap.mp hd
  dsimp only at h
  split at h <;> cases h
  rfl

theorem errorsOf_typeMismatches : errorsOf (g.typeMismatches r) = g.typeMismatches r := by
  refine List.filter_eq_self.mpr fun d hd => ?_
  obtain ⟨⟨id, into⟩, -, h⟩ := List.mem_flatMap.mp hd
  obtain ⟨c, -, h⟩ := List.mem_filterMap.mp h
  dsimp only at h
  split at h <;> cases h
  rfl

theorem errorsOf_invalidParameters :
    errorsOf (g.invalidParameters r) = g.invalidParameters r := by
  refine List.filter_eq_self.mpr fun d hd => ?_
  obtain ⟨⟨n, t⟩, -, h⟩ := List.mem_flatMap.mp hd
  obtain ⟨⟨name, value⟩, -, h⟩ := List.mem_filterMap.mp h
  obtain ⟨message, -, rfl⟩ := Option.map_eq_some_iff.mp h
  rfl

theorem errorsOf_missingOutput :
    errorsOf (if g.outputCount r = 0 then ScheduleError.noOutputNode.diagnostics else []) = [] ↔
      g.outputCount r ≠ 0 := by
  split
  · exact iff_of_false (by decide) (not_not.mpr ‹_›)
  · exact iff_of_true rfl ‹_›

/-- A graph has no errors when no check reports one. Only the last check has warnings too. -/
theorem errorsOf_validate_eq_nil_iff :
    errorsOf (g.validate r) = [] ↔
      g.duplicateIds = [] ∧ g.unknownTypes r = [] ∧ g.unresolvedEdges r = [] ∧
        g.unconnectedInputs r = [] ∧ g.crowdedInputs r = [] ∧ g.typeMismatches r = [] ∧
        g.invalidParameters r = [] ∧ g.outputCount r ≠ 0 ∧ errorsOf (g.planProblems r) = [] := by
  simp only [validate, errorsOf_append, List.append_eq_nil_iff, errorsOf_duplicateIds,
    errorsOf_unknownTypes, errorsOf_unresolvedEdges, errorsOf_unconnectedInputs,
    errorsOf_crowdedInputs, errorsOf_typeMismatches, errorsOf_invalidParameters,
    errorsOf_missingOutput, and_assoc]

/-! ## Well-formed graphs -/

theorem joins_iff_resolve (hd : (g.nodes.map Node.id).Nodup) {e : Edge} {output input : Port}
    {index : Nat} :
    e.Joins r g output index input ↔
      e.resolve r g = .ok ⟨e.source, output, e.target, index, input⟩ := by
  rw [Edge.resolve_eq_ok_iff]
  constructor
  · rintro ⟨hn, hns, hs, hm, hmt, ht, hi, hp, hj, hq⟩
    refine ⟨_, _, _, typeOf?_eq_some_iff.mpr ⟨_, ?_, hs⟩, typeOf?_eq_some_iff.mpr ⟨_, ?_, ht⟩,
      hi, hp, hj, hq, rfl, rfl⟩
    · exact (node?_eq_some_iff hd).mpr ⟨hn, hns⟩
    · exact (node?_eq_some_iff hd).mpr ⟨hm, hmt⟩
  · rintro ⟨source, target, i, hs, ht, hi, hp, hj, hq, -, -⟩
    obtain ⟨n, hn, hs⟩ := typeOf?_eq_some_iff.mp hs
    obtain ⟨m, hm, ht⟩ := typeOf?_eq_some_iff.mp ht
    exact .intro (node?_mem hn) (node?_id hn) hs (node?_mem hm) (node?_id hm) ht hi hp hj hq

theorem joins_of_resolve (hd : (g.nodes.map Node.id).Nodup) {e : Edge} {c : Connection}
    (h : e.resolve r g = .ok c) : e.Joins r g c.sourcePort c.targetIndex c.targetPort := by
  obtain ⟨_, _, _, -, -, -, -, -, -, hs, ht⟩ := Edge.resolve_eq_ok_iff.mp h
  rw [joins_iff_resolve hd, ← hs, ← ht]
  exact h

theorem exists_joins_iff (hd : (g.nodes.map Node.id).Nodup) {e : Edge} :
    (∃ output index input, e.Joins r g output index input) ↔ ∃ c, e.resolve r g = .ok c := by
  constructor
  · rintro ⟨output, index, input, h⟩
    exact ⟨_, (joins_iff_resolve hd).mp h⟩
  · rintro ⟨c, h⟩
    exact ⟨_, _, _, joins_of_resolve hd h⟩

/-- Where every edge resolves, an input has as many connections as edges arrive at it. -/
theorem length_connectionsInto (hall : ∀ e ∈ g.edges, ∃ c, e.resolve r g = .ok c) {id : String}
    (ht : g.typeOf? r id = some t) (index : Nat) :
    (connectionsInto (g.connections r) id index).length = (g.arrivals t id index).length := by
  rw [connectionsInto, ← List.countP_eq_length_filter, connections, List.countP_filterMap, arrivals,
    ← List.countP_eq_length_filter, g.sortedEdges_perm.countP_eq]
  refine List.countP_congr fun e he => ?_
  obtain ⟨c, hc⟩ := hall e he
  obtain ⟨_, u, _, -, hu, -, -, hj, -, -, htarget⟩ := Edge.resolve_eq_ok_iff.mp hc
  simp only [hc, Except.toOption, Option.map_some, Option.getD_some, htarget, Bool.and_eq_true,
    beq_iff_eq]
  refine and_congr_right fun hid => ?_
  rw [hid, ht] at hu
  cases hu
  rw [hj, Option.some.injEq]

/-- Every edge of a graph without errors resolves. -/
theorem resolve_of_noErrors (h : errorsOf (g.validate r) = []) :
    ∀ e ∈ g.edges, ∃ c, e.resolve r g = .ok c := by
  obtain ⟨-, htypes, hedges, -⟩ := errorsOf_validate_eq_nil_iff.mp h
  intro e he
  refine (unresolvedEdges_eq_nil_iff.mp hedges e he).resolve_right fun hu => ?_
  -- the silent case: the node of unknown type has been reported by itself
  rcases Edge.resolve_error hu with ⟨_, -, -, h⟩ | ⟨id, n, -, hn, hnone, -⟩ | ⟨_, _, _, h⟩
  · cases h
  · have hd : n ∈ g.distinctNodes := mem_distinctNodes.mpr (by rwa [node?_id hn])
    obtain ⟨t, ht⟩ := unknownTypes_eq_nil_iff.mp htypes n hd
    rw [hnone] at ht
    cases ht
  · cases h

/-- Where both ends of every edge are nodes, edges and steps between nodes are the same. -/
theorem feeds_iff_of_resolve (hall : ∀ e ∈ g.edges, ∃ c, e.resolve r g = .ok c) {a b : String} :
    g.Feeds a b ↔ ∃ e ∈ g.edges, e.source = a ∧ e.target = b := by
  refine ⟨fun h => h.2.2, ?_⟩
  rintro ⟨e, he, rfl, rfl⟩
  obtain ⟨c, hc⟩ := hall e he
  obtain ⟨_, _, _, hs, ht, -⟩ := Edge.resolve_eq_ok_iff.mp hc
  exact ⟨mem_ids_of_typeOf? hs, mem_ids_of_typeOf? ht, e, he, rfl, rfl⟩

theorem wellFormed_of_noErrors (h : errorsOf (g.validate r) = []) : g.WellFormed r := by
  have hall := resolve_of_noErrors h
  obtain ⟨hids, htypes, -, hunconnected, hcrowded, hmismatch, hparams, hcount, hplan⟩ :=
    errorsOf_validate_eq_nil_iff.mp h
  have hd := duplicateIds_eq_nil_iff.mp hids
  have hfirst : ∀ n ∈ g.nodes, g.node? n.id = some n := fun n => node?_of_nodup hd
  have htyped : ∀ n ∈ g.nodes, ∀ t, r.type? n.typeId = some t → (n, t) ∈ g.typedNodes r :=
    fun n hn t ht => mem_typedNodes.mpr ⟨hfirst n hn, ht⟩
  have hlength : ∀ n ∈ g.nodes, ∀ t, r.type? n.typeId = some t → ∀ index,
      (connectionsInto (g.connections r) n.id index).length = (g.arrivals t n.id index).length :=
    fun n hn t ht => length_connectionsInto hall (typeOf?_eq_some_iff.mpr ⟨n, hfirst n hn, ht⟩)
  have hsingle : ∀ n ∈ g.nodes, ∀ t, r.type? n.typeId = some t →
      ∀ index < t.inputs.length, (g.arrivals t n.id index).length ≤ 1 := by
    intro n hn t ht index hi
    rw [← hlength n hn t ht]
    exact crowdedInputs_eq_nil_iff.mp hcrowded n t (htyped n hn t ht) index hi
  refine ⟨hd, ?_, ?_, ?_, hsingle, ?_, ?_, ?_, ?_⟩
  · exact fun n hn => unknownTypes_eq_nil_iff.mp htypes n (mem_distinctNodes.mpr (hfirst n hn))
  · exact fun e he => (exists_joins_iff hd).mpr (hall e he)
  · intro e he output index input hj
    exact typeMismatches_eq_nil_iff.mp hmismatch _
      (mem_connections.mpr ⟨e, he, (joins_iff_resolve hd).mp hj⟩)
  · intro n hn t ht index port hp hreq
    have hne :=
      unconnectedInputs_eq_nil_iff.mp hunconnected n t (htyped n hn t ht) index port hp hreq
    have hpos := List.length_pos_iff.mpr hne
    rw [hlength n hn t ht] at hpos
    exact Nat.le_antisymm (hsingle n hn t ht index (List.getElem?_eq_some_iff.mp hp).1) hpos
  · exact fun n hn t ht => invalidParameters_eq_nil_iff.mp hparams n t (htyped n hn t ht)
  · obtain ⟨n, t, hnt, hcat⟩ := outputCount_ne_zero_iff.mp hcount
    obtain ⟨hn, ht⟩ := mem_typedNodes.mp hnt
    exact ⟨n, node?_mem hn, t, ht, hcat⟩
  · intro id hcycle
    refine errorsOf_planProblems_eq_nil_iff.mp hplan id ?_
    exact TransGen.mono (fun _ _ => (feeds_iff_of_resolve hall).mpr) _ _ hcycle

theorem noErrors_of_wellFormed (h : g.WellFormed r) : errorsOf (g.validate r) = [] := by
  have hd := h.ids_nodup
  have hall : ∀ e ∈ g.edges, ∃ c, e.resolve r g = .ok c := fun e he =>
    (exists_joins_iff hd).mp (h.edges_join e he)
  have hlength : ∀ n t, (n, t) ∈ g.typedNodes r → ∀ index,
      (connectionsInto (g.connections r) n.id index).length = (g.arrivals t n.id index).length :=
    fun n t hnt => length_connectionsInto hall (typeOf?_eq_some_iff.mpr ⟨n, mem_typedNodes.mp hnt⟩)
  refine errorsOf_validate_eq_nil_iff.mpr ⟨?_, ?_, ?_, ?_, ?_, ?_, ?_, ?_, ?_⟩
  · exact duplicateIds_eq_nil_iff.mpr hd
  · refine unknownTypes_eq_nil_iff.mpr fun n hn => h.types_known n ?_
    exact node?_mem (mem_distinctNodes.mp hn)
  · exact unresolvedEdges_eq_nil_iff.mpr fun e he => .inl (hall e he)
  · refine unconnectedInputs_eq_nil_iff.mpr fun n t hnt index port hp hreq => ?_
    obtain ⟨hn, ht⟩ := mem_typedNodes.mp hnt
    rw [← List.length_pos_iff, hlength n t hnt,
      h.inputs_connected n (node?_mem hn) t ht index port hp hreq]
    exact Nat.one_pos
  · refine crowdedInputs_eq_nil_iff.mpr fun n t hnt index hi => ?_
    obtain ⟨hn, ht⟩ := mem_typedNodes.mp hnt
    rw [hlength n t hnt]
    exact h.inputs_single n (node?_mem hn) t ht index hi
  · refine typeMismatches_eq_nil_iff.mpr fun c hc => ?_
    obtain ⟨e, he, hr⟩ := mem_connections.mp hc
    exact h.types_match e he c.sourcePort c.targetIndex c.targetPort (joins_of_resolve hd hr)
  · refine invalidParameters_eq_nil_iff.mpr fun n t hnt => ?_
    obtain ⟨hn, ht⟩ := mem_typedNodes.mp hnt
    exact h.parameters_fit n (node?_mem hn) t ht
  · obtain ⟨n, hn, t, ht, hcat⟩ := h.has_output
    exact outputCount_ne_zero_iff.mpr ⟨n, t, mem_typedNodes.mpr ⟨node?_of_nodup hd hn, ht⟩, hcat⟩
  · refine errorsOf_planProblems_eq_nil_iff.mpr fun id hcycle => h.acyclic id ?_
    exact TransGen.mono (fun _ _ => (feeds_iff_of_resolve hall).mp) _ _ hcycle

/-- The graphs without errors are the well-formed ones. -/
theorem noErrors_iff_wellFormed : errorsOf (g.validate r) = [] ↔ g.WellFormed r :=
  ⟨wellFormed_of_noErrors, noErrors_of_wellFormed⟩

end Graph

end NodeShader
