import NodeShader.Proofs.Emission

/-!
# Failures of emission and validation

A graph that cannot be planned or written, although its registry is in order, has an error that
says so. Each reason of `Graph.fragment_error` is matched with the check that reports it.

One reason is reported under other kinds. The first node of an id may be of unknown type while
a later node of that id is an output node. Without pruning such an id is left out of the schedule
as a spare output, so what it feeds is the first to fail (`HiddenSource`). Everywhere else a
source of unknown type is scheduled, and refused, before what it feeds
(`Graph.hiddenSource_of_unknownType`).

* `failures_agree`: every failure is reported by the validation;
* `unresolvedEdge_not_reported`: a hidden source whose edge is not reported as such.
-/

namespace NodeShader

variable {r : Registry} {g : Graph} {n : Node} {t : NodeType} {s : Schedule} {prune : Bool}

namespace EmissionError

/-- Whether the node and the port of the diagnostic are those of the failure itself. -/
def isLocated : EmissionError → Bool
  | unknownNodeType .. | missingInput .. | inputAlreadyConnected .. | parameter .. => true
  | _ => false

/-- The diagnostic is an error of the same kind, and of the same place where there is one. -/
def Matches (e : EmissionError) (d : Diagnostic) : Prop :=
  d.isError = true ∧ d.kind = e.diagnostic.kind ∧
    (e.isLocated = true → d.node = e.diagnostic.node ∧ d.port = e.diagnostic.port)

theorem matches_diagnostic {e : EmissionError} (h : e.diagnostic.isError = true) :
    e.Matches e.diagnostic := ⟨h, rfl, fun _ => ⟨rfl, rfl⟩⟩

end EmissionError

namespace Graph

/-! ## What is reported -/

theorem mem_validate {d : Diagnostic} :
    d ∈ g.validate r ↔
      d ∈ g.duplicateIds ∨ d ∈ g.unknownTypes r ∨ d ∈ g.unresolvedEdges r ∨
        d ∈ g.unconnectedInputs r ∨ d ∈ g.crowdedInputs r ∨ d ∈ g.typeMismatches r ∨
        d ∈ g.invalidParameters r ∨
        d ∈ (if g.outputCount r = 0 then ScheduleError.noOutputNode.diagnostics else []) ∨
        d ∈ g.planProblems r := by
  simp only [validate, List.mem_append, or_assoc]

theorem mem_typedNodes_of_node? {id : String} (hn : g.node? id = some n)
    (ht : r.type? n.typeId = some t) : (n, t) ∈ g.typedNodes r := by
  rw [mem_typedNodes, node?_id hn]
  exact ⟨hn, ht⟩

/-- An id of two different nodes is reported. -/
theorem duplicate_reported {m : Node} (hn : n ∈ g.nodes) (hm : m ∈ g.nodes) (hne : n ≠ m)
    (hid : n.id = m.id) :
    ∃ d ∈ g.validate r, d.kind = .duplicateNodeId ∧ d.node = some m.id := by
  have hcount : 1 < g.nodes.countP (fun k => k.id == m.id) := by
    rw [List.countP_eq_length_filter]
    by_contra hle
    exact hne (eq_of_mem_of_length_le_one (Nat.not_lt.mp hle) (by simp [hn, hid]) (by simp [hm]))
  exact ⟨_, mem_validate.mpr (.inl (List.mem_filterMap.mpr
    ⟨m.id, mem_ids.mpr ⟨m, hm, rfl⟩, if_pos hcount⟩)), rfl, rfl⟩

theorem unknownType_reported {id : String} (hn : g.node? id = some n)
    (ht : r.type? n.typeId = none) :
    (EmissionError.unknownNodeType n.id n.typeId).diagnostic ∈ g.validate r := by
  have hdistinct : n ∈ g.distinctNodes := by
    rw [mem_distinctNodes, node?_id hn]
    exact hn
  have hd : (EmissionError.unknownNodeType n.id n.typeId).diagnostic ∈ g.unknownTypes r :=
    List.mem_filterMap.mpr ⟨n, hdistinct, if_pos (by rw [ht]; rfl)⟩
  exact mem_validate.mpr (by simp only [hd, true_or, or_true])

theorem unresolved_reported {e : Edge} {p : ConnectionError} {d : Diagnostic} (he : e ∈ g.edges)
    (hp : e.resolve r g = .error p) (hdiagnostic : p.diagnostic? = some d) :
    d ∈ g.validate r := by
  have hd : d ∈ g.unresolvedEdges r := by
    refine List.mem_filterMap.mpr ⟨e, mem_sortedEdges.mpr he, ?_⟩
    rw [hp]
    exact hdiagnostic
  exact mem_validate.mpr (by simp only [hd, true_or, or_true])

theorem missingInput_reported {id : String} {index : Nat} {port : Port}
    (hn : g.node? id = some n) (ht : r.type? n.typeId = some t)
    (hport : t.inputs[index]? = some port) (hdirection : port.direction = .input)
    (hdefault : port.default = none) (hnone : connectionsInto (g.connections r) id index = []) :
    (EmissionError.missingInput id port.name).diagnostic ∈ g.validate r := by
  have hrequired : port.isRequired = true := by simp [Port.isRequired, hdirection, hdefault]
  have hd : (EmissionError.missingInput id port.name).diagnostic ∈ g.unconnectedInputs r := by
    refine List.mem_flatMap.mpr ⟨(n, t), mem_typedNodes_of_node? hn ht, ?_⟩
    refine List.mem_filterMap.mpr ⟨(port, index), List.mem_zipIdx_iff_getElem?.mpr hport, ?_⟩
    dsimp only
    rw [node?_id hn, hnone, hrequired]
    rfl
  exact mem_validate.mpr (by simp only [hd, true_or, or_true])

theorem crowdedInput_reported {id : String} {index : Nat} {port : Port}
    (hn : g.node? id = some n) (ht : r.type? n.typeId = some t)
    (hport : t.inputs[index]? = some port)
    (htwo : 2 ≤ (connectionsInto (g.connections r) id index).length) :
    ∃ d ∈ g.validate r, (EmissionError.inputAlreadyConnected id port.name).Matches d := by
  match hinto : connectionsInto (g.connections r) id index with
  | [] | [_] => simp [hinto] at htwo
  | first :: second :: rest =>
    have hfirst : first ∈ connectionsInto (g.connections r) id index := by simp [hinto]
    obtain ⟨hmem, htarget, hindex⟩ := mem_connectionsInto.mp hfirst
    -- the port of the first connection is the one at this position
    obtain ⟨m, u, hmu, hid, -, hport'⟩ := exists_typedNode_of_mem_connections hmem
    obtain ⟨hm, hu⟩ := mem_typedNodes.mp hmu
    rw [hid, htarget, hn] at hm
    cases hm
    rw [ht] at hu
    cases hu
    rw [hindex, hport] at hport'
    cases hport'
    have hd : (⟨.inputAlreadyConnected,
        s!"input port already connected ({(first :: second :: rest).length} edges)", some id,
        some first.targetPort.name⟩ : Diagnostic) ∈ g.crowdedInputs r := by
      refine List.mem_filterMap.mpr ⟨_, mem_connectedInputs_of_mem hmem, ?_⟩
      rw [htarget, hindex, hinto]
    exact ⟨_, mem_validate.mpr (.inr (.inr (.inr (.inr (.inl hd))))), rfl, rfl, fun _ => ⟨rfl, rfl⟩⟩

theorem parameter_reported {id : String} {p : Parameter} {value : ParameterValue}
    {cause : ParameterError} (hn : g.node? id = some n) (ht : r.type? n.typeId = some t)
    (hp : t.parameter? p.name = some p) (hvalue : n.parameters.get? p.name = some value)
    (hcause : p.resolve value = .error cause) :
    (EmissionError.parameter n.id p.name cause).diagnostic ∈ g.validate r := by
  have hentry : (p.name, value) ∈ n.parameters.entries := by
    obtain ⟨⟨name, v⟩, hfind, rfl⟩ := Option.map_eq_some_iff.mp hvalue
    have hname : name = p.name := by simpa using List.find?_some hfind
    exact hname ▸ List.mem_of_find?_eq_some hfind
  have hd : (EmissionError.parameter n.id p.name cause).diagnostic ∈ g.invalidParameters r := by
    refine List.mem_flatMap.mpr ⟨(n, t), mem_typedNodes_of_node? hn ht, ?_⟩
    refine List.mem_filterMap.mpr ⟨_, hentry, ?_⟩
    simp only [parameterProblem?, hp, hcause]
    rfl
  exact mem_validate.mpr (by simp only [hd, true_or, or_true])

theorem noOutput_reported (h : g.outputIds r = []) :
    ∀ d ∈ ScheduleError.noOutputNode.diagnostics, d ∈ g.validate r := by
  have hcount : g.outputCount r = 0 := by
    by_contra hne
    obtain ⟨n, t, hnt, hc⟩ := outputCount_ne_zero_iff.mp hne
    obtain ⟨hn, ht⟩ := mem_typedNodes.mp hnt
    have hout : n.id ∈ g.outputIds r :=
      mem_outputIds.mpr ⟨n, node?_mem hn, rfl, by simp [Registry.isOutputType, ht, hc]⟩
    simp [h] at hout
  intro d hd
  refine mem_validate.mpr ?_
  rw [if_pos hcount]
  simp only [hd, true_or, or_true]

/-- A graph without a schedule has the errors of that failure. -/
theorem schedule_error_reported {e : ScheduleError} (h : g.schedule r prune = .error e) :
    e.diagnostics ≠ [] ∧ ∀ d ∈ e.diagnostics, d.isError = true ∧ d ∈ g.validate r := by
  rcases schedule_eq_error_iff.mp h with ho | ⟨rfl, hout, -⟩
  · obtain ⟨cycles, rfl, hne⟩ := topologicalOrder_eq_error ho
    refine ⟨by simpa [ScheduleError.diagnostics] using hne, fun d hd => ⟨?_, ?_⟩⟩
    · obtain ⟨ids, -, rfl⟩ := List.mem_map.mp hd
      rfl
    -- the validation plans with pruning, which makes no difference here
    have hplan : g.schedule r true = .error (.cycle cycles) := schedule_eq_error_iff.mpr (.inl ho)
    have hd' : d ∈ g.planProblems r := by
      simp only [planProblems, hplan]
      exact List.mem_append_right _ hd
    exact mem_validate.mpr (by simp only [hd', or_true])
  · refine ⟨by simp [ScheduleError.diagnostics], fun d hd => ⟨?_, noOutput_reported hout d hd⟩⟩
    simp only [ScheduleError.diagnostics, List.mem_singleton] at hd
    rw [hd]
    rfl

/-- A graph without errors has a schedule. -/
theorem exists_schedule (h : errorsOf (g.validate r) = []) (prune : Bool) :
    ∃ s, g.schedule r prune = .ok s := by
  cases hs : g.schedule r prune with
  | ok s => exact ⟨s, rfl⟩
  | error e =>
    obtain ⟨hne, hreported⟩ := schedule_error_reported hs
    obtain ⟨d, hd⟩ := List.exists_mem_of_ne_nil _ hne
    obtain ⟨herror, hd⟩ := hreported d hd
    exact absurd herror (List.filter_eq_nil_iff.mp h d hd)

end Graph

/-! ## Sources of unknown type -/

/-- A node is fed by an id whose first node is of unknown type, and which is left out of the
schedule because another of its nodes is an output node. -/
def HiddenSource (r : Registry) (g : Graph) (s : Schedule) (node source : String) : Prop :=
  (∃ e ∈ g.edges, e.source = source ∧ e.target = node) ∧
    (∃ n, g.node? source = some n ∧ r.type? n.typeId = none) ∧
    source ∈ g.outputIds r ∧ source ≠ s.output

/-- A source of unknown type that was not refused before is a hidden one. -/
theorem Graph.hiddenSource_of_unknownType {before after : List String} {id : String} {e : Edge}
    (hs : g.schedule r prune = .ok s) (hsplit : s.order = before ++ id :: after)
    (hbefore : ∀ a ∈ before, ∃ f, g.fragment r (g.stems r) a = .ok f)
    (he : e ∈ g.edges) (htarget : e.target = id) (hn : g.node? e.source = some n)
    (ht : r.type? n.typeId = none) : prune = false ∧ HiddenSource r g s id e.source := by
  have hid : id ∈ s.order := by simp [hsplit]
  obtain ⟨hids, hkept⟩ := (mem_order hs).mp hid
  have hfeeds : g.Feeds e.source id :=
    ⟨exists_node?_iff.mp ⟨n, hn⟩, hids, e, he, rfl, htarget⟩
  have hdropped : ¬ g.isKept r prune s.output e.source = true := by
    intro hk
    obtain ⟨f, hf⟩ := hbefore _ (schedule_feedersFirst hs before id after hsplit _ ⟨hfeeds, hk⟩)
    obtain ⟨m, t, -, hm, hmt, -⟩ := fragment_ok hf
    rw [hn] at hm
    cases hm
    rw [ht] at hmt
    cases hmt
  cases prune with
  | true =>
    have ho := outputIds_subset (output_mem_outputIds hs)
    exact absurd (isKept_of_feeds ho hfeeds hkept) hdropped
  | false =>
    rw [isKept_false, not_or, not_not] at hdropped
    exact ⟨rfl, ⟨e, he, rfl, htarget⟩, ⟨n, hn, ht⟩, hdropped.2, hdropped.1⟩

/-- A hidden source is reported twice: its id is shared, and its first node is of unknown
type. -/
theorem HiddenSource.reported {node source : String} (h : HiddenSource r g s node source) :
    (∃ d ∈ g.validate r, d.kind = .duplicateNodeId ∧ d.node = some source) ∧
      ∃ d ∈ g.validate r, d.kind = .unknownNodeType ∧ d.node = some source := by
  obtain ⟨-, ⟨n, hn, ht⟩, hout, -⟩ := h
  obtain ⟨m, hm, rfl, htype⟩ := Graph.mem_outputIds.mp hout
  have hne : n ≠ m := by
    rintro rfl
    simp [Registry.isOutputType, ht] at htype
  refine ⟨Graph.duplicate_reported (Graph.node?_mem hn) hm hne (Graph.node?_id hn), ?_⟩
  exact ⟨_, Graph.unknownType_reported hn ht, rfl, congrArg some (Graph.node?_id hn)⟩

/-! ## All failures -/

theorem NodeType.parameter?_of_nodup {p : Parameter}
    (hd : (t.parameters.map Parameter.name).Nodup) (hp : p ∈ t.parameters) :
    t.parameter? p.name = some p := by
  have hsome : (t.parameter? p.name).isSome := List.find?_isSome.mpr ⟨p, hp, by simp⟩
  obtain ⟨q, hq⟩ := Option.isSome_iff_exists.mp hsome
  have hname : q.name = p.name := by simpa using List.find?_some hq
  rw [hq, List.inj_on_of_nodup_map hd (List.mem_of_find?_eq_some hq) hp hname]

/-- An edge that does not resolve is reported, unless it comes from a node of unknown type. -/
theorem unresolvedEdge_reported {id : String} {e : Edge} {p : ConnectionError} (he : e ∈ g.edges)
    (htarget : e.target = id) (ht : g.typeOf? r id = some t) (hp : e.resolve r g = .error p) :
    (∃ d ∈ g.validate r, (p.emissionError id).Matches d) ∨
      p.emissionError id = .unresolvedEdge id ∧
        ∃ n, g.node? e.source = some n ∧ r.type? n.typeId = none := by
  rcases Edge.resolve_error hp with ⟨missing, -, -, rfl⟩ | ⟨m, n, hm, hn, hnone, rfl⟩ |
    ⟨node, d, handle, rfl⟩
  · exact .inl ⟨_, Graph.unresolved_reported he hp rfl, rfl, rfl, fun h => by cases h⟩
  · refine .inr ⟨rfl, n, ?_, hnone⟩
    rcases hm with rfl | ⟨rfl, -⟩
    · exact hn
    · -- the target has a type
      rw [htarget] at hn
      obtain ⟨k, hk, hkt⟩ := Graph.typeOf?_eq_some_iff.mp ht
      rw [hn] at hk
      cases hk
      rw [hnone] at hkt
      cases hkt
  · cases handle with
    | none => exact .inl ⟨_, Graph.unresolved_reported he hp rfl, rfl, rfl, fun h => by cases h⟩
    | some handle =>
      exact .inl ⟨_, Graph.unresolved_reported he hp rfl, rfl, rfl, fun h => by cases h⟩

/-- What cannot be written is reported, or it is fed by a hidden source. -/
theorem Graph.emit_error_reported {entry : EntryPoint} {err : EmissionError}
    (hnames : ∀ t ∈ r.types, (t.parameters.map Parameter.name).Nodup)
    (hinputs : ∀ t ∈ r.types, ∀ port ∈ t.inputs, port.direction = .input)
    (hs : g.schedule r prune = .ok s) (h : g.emit r entry s = .error err)
    (hi : err.isInternal = false) :
    (∃ d ∈ g.validate r, err.Matches d) ∨
      prune = false ∧
        ∃ node source, err = .unresolvedEdge node ∧ HiddenSource r g s node source := by
  obtain ⟨before, id, after, hsplit, hbefore, herr⟩ := emit_error h hi
  have hid : id ∈ s.order := by simp [hsplit]
  rcases fragment_error herr hi with ⟨hnone, -⟩ | ⟨n, hn, ht, rfl⟩ | ⟨n, t, hn, ht, hcause⟩
  · exact absurd ((mem_order hs).mp hid).1 (node?_eq_none_iff.mp hnone)
  · exact .inl ⟨_, unknownType_reported hn ht, EmissionError.matches_diagnostic rfl⟩
  have hmem := Registry.type?_mem ht
  rcases hcause with ⟨p, hp, hcause⟩ | hcause
  · obtain ⟨value, cause, hvalue, hresolve, rfl⟩ := parameterLiteral_error hcause
    have hfirst := NodeType.parameter?_of_nodup (hnames t hmem) hp
    exact .inl ⟨_, parameter_reported hn ht hfirst hvalue hresolve,
      EmissionError.matches_diagnostic rfl⟩
  rcases bindInputs_error hcause with ⟨e, he, htarget, p, hp, rfl⟩ |
    ⟨index, port, hport, ⟨hnone, hdefault, rfl⟩ | ⟨htwo, rfl⟩⟩
  · have htype : g.typeOf? r id = some t := typeOf?_eq_some_iff.mpr ⟨n, hn, ht⟩
    refine (unresolvedEdge_reported he htarget htype hp).imp_right ?_
    rintro ⟨herr, m, hm, hmt⟩
    obtain ⟨hprune, hidden⟩ := hiddenSource_of_unknownType hs hsplit hbefore he htarget hm hmt
    exact ⟨hprune, id, e.source, herr, hidden⟩
  · have hdirection := hinputs t hmem port (List.mem_of_getElem? hport)
    exact .inl ⟨_, missingInput_reported hn ht hport hdirection hdefault hnone,
      EmissionError.matches_diagnostic rfl⟩
  · exact .inl (crowdedInput_reported hn ht hport htwo)

/-- The validation reports every failure that is not the registry's. A graph without a schedule
has the errors of the planning. A graph that cannot be written has an error of the same kind, at
the same node and port where the failure has them; only a hidden source is reported under its own
two kinds instead. So a graph without errors has a schedule and can fail only by its registry. -/
theorem failures_agree {r : Registry}
    (hnames : ∀ t ∈ r.types, (t.parameters.map Parameter.name).Nodup)
    (hinputs : ∀ t ∈ r.types, ∀ port ∈ t.inputs, port.direction = .input)
    (g : Graph) (entry : EntryPoint) (prune : Bool) :
    (∀ e, g.schedule r prune = .error e →
      e.diagnostics ≠ [] ∧ ∀ d ∈ e.diagnostics, d.isError = true ∧ d ∈ g.validate r) ∧
    (∀ s err, g.schedule r prune = .ok s → g.emit r entry s = .error err →
      err.isInternal = false →
        (∃ d ∈ g.validate r, err.Matches d) ∨
          prune = false ∧ ∃ node source, err = .unresolvedEdge node ∧
            HiddenSource r g s node source ∧
            (∃ d ∈ g.validate r, d.kind = .duplicateNodeId ∧ d.node = some source) ∧
            ∃ d ∈ g.validate r, d.kind = .unknownNodeType ∧ d.node = some source) ∧
    (errorsOf (g.validate r) = [] → ∃ s, g.schedule r prune = .ok s ∧
      ∀ err, g.emit r entry s = .error err → err.isInternal = true) := by
  refine ⟨fun e he => Graph.schedule_error_reported he, fun s err hs herr hi => ?_, fun hnone => ?_⟩
  · refine (Graph.emit_error_reported hnames hinputs hs herr hi).imp_right ?_
    rintro ⟨hprune, node, source, rfl, hidden⟩
    exact ⟨hprune, node, source, rfl, hidden, hidden.reported⟩
  have hvalid : ∀ d ∈ g.validate r, ¬ d.isError = true := List.filter_eq_nil_iff.mp hnone
  cases hs : g.schedule r prune with
  | error e =>
    obtain ⟨hne, hreported⟩ := Graph.schedule_error_reported hs
    obtain ⟨d, hd⟩ := List.exists_mem_of_ne_nil _ hne
    exact absurd (hreported d hd).1 (hvalid d (hreported d hd).2)
  | ok s =>
    refine ⟨s, rfl, fun err herr => ?_⟩
    by_contra hi
    rcases Graph.emit_error_reported hnames hinputs hs herr (Bool.eq_false_of_not_eq_true hi) with
      ⟨d, hd, hmatch⟩ | ⟨-, node, source, -, hidden⟩
    · exact hvalid d hd hmatch.1
    · obtain ⟨⟨d, hd, hkind, -⟩, -⟩ := hidden.reported
      exact hvalid d hd (by simp [Diagnostic.isError, Diagnostic.severity, hkind,
        DiagnosticKind.severity])

/-- A graph whose first node lacks its input. -/
def unfedGraph : Graph :=
  { nodes := [⟨"0", "float_to_vec3", ∅⟩, ⟨"A", "fragment_output", ∅⟩]
    edges := [⟨"e", "0", none, "A", none⟩] }

theorem failures_agree_unfed :
    unfedGraph.schedule .catalog true = .ok ⟨["0", "A"], "A", []⟩ ∧
      unfedGraph.emit .catalog .main ⟨["0", "A"], "A", []⟩ = .error (.missingInput "0" "value") ∧
      ∃ d ∈ unfedGraph.validate .catalog, (EmissionError.missingInput "0" "value").Matches d := by
  have hsorted : unfedGraph.sortedEdges = unfedGraph.edges :=
    Graph.sortedEdges_of_pairwise (by decide)
  have hs : unfedGraph.schedule .catalog true = .ok ⟨["0", "A"], "A", []⟩ := by decide +kernel
  have herr : unfedGraph.emit .catalog .main ⟨["0", "A"], "A", []⟩ =
      .error (.missingInput "0" "value") := by
    unfold Graph.emit Graph.fragment bindInputs incomingVariables
    rw [hsorted]
    decide +kernel
  obtain ⟨-, hagree, -⟩ := failures_agree (r := .catalog) (by decide +kernel) (by decide +kernel)
    unfedGraph .main true
  refine ⟨hs, herr, (hagree _ _ hs herr rfl).resolve_right ?_⟩
  rintro ⟨hprune, -⟩
  cases hprune

/-- A graph with a hidden source: the second of the nodes `a` is a spare output node. -/
def sharedIdGraph : Graph :=
  { nodes := [⟨"0", "color_picker", ∅⟩, ⟨"A", "fragment_output", ∅⟩, ⟨"a", "bogus", ∅⟩,
      ⟨"a", "fragment_output", ∅⟩, ⟨"b", "float_to_vec3", ∅⟩]
    edges := [⟨"e1", "0", none, "A", none⟩, ⟨"e2", "a", none, "b", none⟩] }

/-- The edge of a hidden source fails to resolve when the graph is written, and no error of the
validation is of that kind. -/
theorem unresolvedEdge_not_reported :
    (∀ t ∈ Registry.catalog.types, (t.parameters.map Parameter.name).Nodup) ∧
      (∀ t ∈ Registry.catalog.types, ∀ port ∈ t.inputs, port.direction = .input) ∧
      ∃ s err, sharedIdGraph.schedule .catalog false = .ok s ∧
        sharedIdGraph.emit .catalog .main s = .error err ∧ err.isInternal = false ∧
        ¬ ∃ d ∈ sharedIdGraph.validate .catalog, d.isError = true ∧
          d.kind = err.diagnostic.kind := by
  have hsorted : sharedIdGraph.sortedEdges = sharedIdGraph.edges :=
    Graph.sortedEdges_of_pairwise (by decide)
  refine ⟨by decide +kernel, by decide +kernel, ⟨["0", "A", "b"], "A", [["b"]]⟩,
    .unresolvedEdge "b", by decide +kernel, ?_, rfl, ?_⟩
  · unfold Graph.emit Graph.fragment bindInputs incomingVariables
    rw [hsorted]
    decide +kernel
  · simp only [Graph.validate, Graph.unresolvedEdges, Graph.unconnectedInputs,
      Graph.crowdedInputs, Graph.typeMismatches, Graph.connectedInputs, Graph.connections, hsorted]
    decide +kernel

end NodeShader
