import NodeShader.Proofs.Machine
import NodeShader.Proofs.Rendering

/-!
# Execution of a shader

Running the statements of a shader is an induction along its schedule. `Machine.Agrees` says what
holds when part of the schedule is done: the outputs of the nodes done have their values in the
graph, and every variable that is set is a uniform or belongs to one of them. One node keeps this
(`Graph.step_agrees`), hence so does the schedule (`Graph.run_agrees`).

* `emission_preserves_meaning`: the statements of a graph without errors run to the end, and leave
  in the variables and in the result what the graph means.
-/

namespace NodeShader

/-- Distinct names, and templates that write what their types declare. -/
structure NodeType.Regular (t : NodeType) : Prop where
  inputs_nodup : (t.inputs.map Port.name).Nodup
  outputs_nodup : (t.outputs.map Port.name).Nodup
  parameters_nodup : (t.parameters.map Parameter.name).Nodup
  temporaries_apart : ∀ template ∈ t.parseTemplate.toOption, ∀ name ∈ template.temporaries,
    ∀ port ∈ t.outputs, port.uniform = false → port.name ≠ name
  outputs_written : ∀ template ∈ t.parseTemplate.toOption, template.isBlank = true →
    ∀ port ∈ t.outputs, port.uniform = true
  output_last : t.category = .output → t.outputs = []

def Registry.Regular (r : Registry) : Prop := ∀ t ∈ r.types, t.Regular

variable {V : Type} {I : Interpretation V} {host : String → String → V} {builtin : String → V}
  {r : Registry} {g : Graph} {s : Schedule} {prune : Bool}

namespace Graph

/-! ## Scheduled nodes -/

theorem mem_outputIds_iff (hd : (g.nodes.map Node.id).Nodup) {id : String} {t : NodeType}
    (ht : g.typeOf? r id = some t) : id ∈ g.outputIds r ↔ t.category = .output := by
  obtain ⟨n, hn, ht⟩ := typeOf?_eq_some_iff.mp ht
  rw [mem_outputIds]
  constructor
  · rintro ⟨m, hm, hid, hout⟩
    have hsame := (node?_eq_some_iff hd).mpr ⟨hm, hid⟩
    rw [hn] at hsame
    cases hsame
    simpa [Registry.isOutputType, ht] using hout
  · intro hc
    exact ⟨n, node?_mem hn, node?_id hn, by simp [Registry.isOutputType, ht, hc]⟩

/-- A node with an output port is no output node. -/
theorem category_ne_output (hr : r.Regular) {id : String} {t : NodeType}
    (ht : g.typeOf? r id = some t) {i : Nat} {port : Port} (hport : t.outputs[i]? = some port) :
    t.category ≠ .output := by
  intro hc
  obtain ⟨n, -, ht⟩ := typeOf?_eq_some_iff.mp ht
  rw [(hr t (Registry.type?_mem ht)).output_last hc] at hport
  simp at hport

theorem not_mem_before (hs : g.schedule r prune = .ok s) {before after : List String} {id : String}
    (hsplit : s.order = before ++ id :: after) : id ∉ before := by
  have hd := nodup_order hs
  rw [hsplit, List.nodup_append] at hd
  exact fun h => hd.2.2 id h id List.mem_cons_self rfl

/-- What feeds a scheduled node is scheduled before it. -/
theorem source_scheduled (hr : r.Regular) (hd : (g.nodes.map Node.id).Nodup)
    (hs : g.schedule r prune = .ok s) {e : Edge} {c : Connection} (he : e ∈ g.edges)
    (hc : e.resolve r g = .ok c) {before after : List String}
    (hsplit : s.order = before ++ c.target :: after) : c.source ∈ before := by
  obtain ⟨source, target, i, hsource, htarget, -, hport, -, -, hcs, hct⟩ :=
    Edge.resolve_eq_ok_iff.mp hc
  have hkept := ((mem_order hs).mp (hsplit ▸ by simp : c.target ∈ s.order)).2
  have hfeeds : g.Feeds c.source c.target := by
    rw [hcs, hct]
    exact ⟨mem_ids_of_typeOf? hsource, mem_ids_of_typeOf? htarget, e, he, rfl, rfl⟩
  refine schedule_feedersFirst hs before _ after hsplit _ ⟨hfeeds, ?_⟩
  cases prune with
  | true => exact isKept_of_feeds (outputIds_subset (output_mem_outputIds hs)) hfeeds hkept
  | false =>
    -- only output nodes are left out
    refine isKept_false.mpr (.inr fun hout => ?_)
    rw [hcs, mem_outputIds_iff hd hsource] at hout
    exact category_ne_output hr hsource hport hout

/-- Only the output of a schedule is of the output category. -/
theorem eq_output_of_category (hr : r.Regular) (hg : g.WellFormed r)
    (hs : g.schedule r prune = .ok s) {id : String} {t : NodeType} (hid : id ∈ s.order)
    (ht : g.typeOf? r id = some t) (hc : t.category = .output) : id = s.output := by
  have hkept := ((mem_order hs).mp hid).2
  cases prune with
  | true =>
    rcases Relation.ReflTransGen.cases_head
      ((isKept_true (outputIds_subset (output_mem_outputIds hs))).mp hkept) with h | ⟨b, hfeeds, -⟩
    · exact h
    -- it feeds nothing, having no output port
    obtain ⟨-, -, e, he, rfl, -⟩ := hfeeds
    obtain ⟨c, hresolve⟩ := (exists_joins_iff hg.ids_nodup).mp (hg.edges_join e he)
    obtain ⟨source, _, i, hsource, -, -, hport, -⟩ := Edge.resolve_eq_ok_iff.mp hresolve
    rw [ht] at hsource
    cases hsource
    exact absurd hc (category_ne_output hr ht hport)
  | false =>
    exact (isKept_false.mp hkept).resolve_right
      (not_not_intro ((mem_outputIds_iff hg.ids_nodup ht).mpr hc))

theorem category_output (hg : g.WellFormed r) (hs : g.schedule r prune = .ok s) {t : NodeType}
    (ht : g.typeOf? r s.output = some t) : t.category = .output :=
  (mem_outputIds_iff hg.ids_nodup ht).mp (output_mem_outputIds hs)

end Graph

/-! ## The invariant -/

namespace Machine

/-- The result is that of a node, which has none if its template is blank. -/
def HasResult (I : Interpretation V) (host : String → String → V) (r : Registry) (g : Graph)
    (id : String) (m : Machine V) : Prop :=
  ∀ t template, g.typeOf? r id = some t → t.parseTemplate = .ok template →
    ∃ v, g.ResultMeans I host r id v ∧ m.result = if template.isBlank then none else some v

/-- What holds after the statements of the nodes `done`, if the machine began with `start`. -/
structure Agrees (I : Interpretation V) (host : String → String → V) (r : Registry) (g : Graph)
    (s : Schedule) (m start : Machine V) (done : List String) : Prop where
  uniforms : ∀ name, ¬ LikeStem name → m.store name = start.store name
  outputs : ∀ id ∈ done, ∀ t, g.typeOf? r id = some t → ∀ port ∈ t.outputs,
    ∃ v, m.store (outputVariable ((g.stems r).get id) port) = some v ∧
      g.Means I host r (.output id port) v
  owned : ∀ name, LikeStem name → m.store name ≠ none →
    ∃ id ∈ done, name ∈ takenNames (g.typeOf? r id) ((g.stems r).get id)
  unfinished : s.output ∉ done → m.result = none
  finished : s.output ∈ done → m.HasResult I host r g s.output

theorem HasResult.of_result {id : String} {m m' : Machine V} (h : m.HasResult I host r g id)
    (hresult : m'.result = m.result) : m'.HasResult I host r g id := by
  intro t template ht htemplate
  rw [hresult]
  exact h t template ht htemplate

theorem agrees_start : (g.start builtin host r s).Agrees I host r g s
    (g.start builtin host r s) [] where
  uniforms _ _ := rfl
  outputs := by simp
  owned name hname hset := absurd (Graph.start_likeStem hname) hset
  unfinished _ := rfl
  finished := by simp

/-- One more node is done when its variables are new and hold its outputs, and when only the
output node has touched the result. -/
theorem Agrees.extend {start m m' : Machine V} {done : List String} {id : String}
    (h : m.Agrees I host r g s start done) (hid : id ∉ done)
    (hkept : ∀ name, m.store name ≠ none → m'.store name = m.store name)
    (hnew : ∀ name, m.store name = none → m'.store name ≠ none →
      LikeStem name ∧ name ∈ takenNames (g.typeOf? r id) ((g.stems r).get id))
    (houtputs : ∀ t, g.typeOf? r id = some t → ∀ port ∈ t.outputs,
      ∃ v, m'.store (outputVariable ((g.stems r).get id) port) = some v ∧
        g.Means I host r (.output id port) v)
    (hother : id ≠ s.output → m'.result = m.result)
    (houtput : id = s.output → m'.HasResult I host r g id) :
    m'.Agrees I host r g s start (done ++ [id]) where
  uniforms name hname := by
    rw [← h.uniforms name hname]
    by_cases hset : m.store name = none
    · by_contra hne
      exact hname (hnew name hset (fun hnone => hne (hnone.trans hset.symm))).1
    · exact hkept name hset
  outputs a ha t ht port hport := by
    rcases List.mem_append.mp ha with ha | ha
    · obtain ⟨v, hv, hmeans⟩ := h.outputs a ha t ht port hport
      exact ⟨v, (hkept _ (by simp [hv])).trans hv, hmeans⟩
    · rw [List.mem_singleton] at ha
      subst ha
      exact houtputs t ht port hport
  owned name hname hset := by
    by_cases hbefore : m.store name = none
    · exact ⟨id, by simp, (hnew name hbefore hset).2⟩
    · obtain ⟨a, ha, htaken⟩ := h.owned name hname hbefore
      exact ⟨a, List.mem_append_left _ ha, htaken⟩
  unfinished hout := by
    rw [List.mem_append, not_or, List.mem_singleton] at hout
    rw [hother (Ne.symm hout.2), h.unfinished hout.1]
  finished hout := by
    rcases List.mem_append.mp hout with hout | hout
    · have hne : id ≠ s.output := fun heq => hid (heq ▸ hout)
      exact (h.finished hout).of_result (hother hne)
    · have heq := List.mem_singleton.mp hout
      exact heq ▸ houtput heq.symm

end Machine

/-! ## One node -/

namespace Graph

variable {m start : Machine V} {before after : List String} {id : String} {n : Node} {t : NodeType}

/-- The expression of an input has the value of that input. -/
theorem input_value (hr : r.Regular) (hg : g.WellFormed r) (hs : g.schedule r prune = .ok s)
    (hsplit : s.order = before ++ id :: after) (hm : m.Agrees I host r g s start before)
    (hn : g.node? id = some n) (ht : r.type? n.typeId = some t) {index : Nat} {port : Port}
    (hport : t.inputs[index]? = some port) {expression : String}
    (hexpression : inputExpression id port ((connectionsInto (g.connections r) id index).map
      (Connection.variable (g.stems r))) = .ok expression) :
    ∃ v, inputValue I m port (connectionsInto (g.connections r) id index) expression = some v ∧
      g.Means I host r (.input id index) v := by
  rcases inputExpression_eq_ok_iff.mp hexpression with hone | ⟨hnone, literal, hdefault, rfl⟩
  · -- one connection brings the variable of an output that is written already
    obtain ⟨c, hinto, rfl⟩ := List.map_eq_singleton_iff.mp hone
    have hmem : c ∈ connectionsInto (g.connections r) id index := by simp [hinto]
    obtain ⟨hconnection, rfl, rfl⟩ := mem_connectionsInto.mp hmem
    obtain ⟨e, he, hc⟩ := mem_connections.mp hconnection
    obtain ⟨source, _, _, hsource, -, -, hp, -, -, hcs, hct⟩ := Edge.resolve_eq_ok_iff.mp hc
    have hbefore := source_scheduled hr hg.ids_nodup hs he hc hsplit
    rw [← hcs] at hsource
    obtain ⟨v, hv, hmeans⟩ := hm.outputs c.source hbefore source hsource c.sourcePort
      (List.mem_of_getElem? hp)
    have hjoins := joins_of_resolve hg.ids_nodup hc
    refine ⟨v, ?_, .connected he hct.symm hjoins (hcs ▸ hmeans)⟩
    rw [hinto]
    exact hv
  · rw [List.map_eq_nil_iff] at hnone
    have hresolve : ∀ e ∈ g.edges, ∃ c, e.resolve r g = .ok c := fun e he =>
      (exists_joins_iff hg.ids_nodup).mp (hg.edges_join e he)
    have harrivals := length_connectionsInto hresolve (typeOf?_eq_some_iff.mpr ⟨n, hn, ht⟩) index
    rw [hnone, List.length_nil, eq_comm, List.length_eq_zero_iff] at harrivals
    refine ⟨_, ?_, .default (node?_mem hn) (node?_id hn) ht hport harrivals hdefault⟩
    simp [inputValue, hnone, hdefault]

/-- The template of a scheduled node finds the values of its inputs. -/
theorem inputValues_means (hr : r.Regular) (hg : g.WellFormed r) (hs : g.schedule r prune = .ok s)
    (hsplit : s.order = before ++ id :: after) (hm : m.Agrees I host r g s start before)
    (hn : g.node? id = some n) (ht : r.type? n.typeId = some t)
    {inputs : List (String × String)} (hinputs : bindInputs r g (g.stems r) id t = .ok inputs)
    (stem : String) (parameters : List (String × String)) :
    ∃ values, g.inputValues I r m id t (nodeBindings t stem inputs parameters) = some values ∧
      List.Forall₂ (fun input v => g.Means I host r (.input id input.2) v) t.inputs.zipIdx
        values := by
  refine exists_mapM_eq_some fun input hinput => ?_
  have hport : t.inputs[input.2]? = some input.1 := List.mem_zipIdx_iff_getElem?.mp hinput
  obtain ⟨expression, hget, hexpression⟩ :=
    expression_of_input (hr t (Registry.type?_mem ht)).inputs_nodup hinputs hport
  have hbound : (nodeBindings t stem inputs parameters).inputs.get? input.1.name =
      some expression := hget
  rw [hbound]
  exact input_value hr hg hs hsplit hm hn ht hport hexpression

/-- It finds the literals of its parameters. -/
theorem boundLiterals_resolved (hr : r.Regular) (ht : r.type? n.typeId = some t)
    {parameters : List (String × String)} (hparameters : bindParameters n t = .ok parameters)
    (stem : String) (inputs : List (String × String)) :
    ∃ literals,
      t.parameters.mapM (boundLiteral n (nodeBindings t stem inputs parameters)) = some literals ∧
      List.Forall₂ (fun p literal => parameterLiteral n p = .ok literal) t.parameters literals := by
  refine exists_mapM_eq_some fun p hp => ?_
  obtain ⟨literal, hliteral, hget⟩ :=
    literal_of_parameter (hr t (Registry.type?_mem ht)).parameters_nodup hparameters hp
  have hbound : (nodeBindings t stem inputs parameters).parameters.get? p.name =
      some literal.toGlsl := hget
  exact ⟨literal, by simp [boundLiteral, hliteral, hbound, Except.toOption], hliteral⟩

/-- What the template of a node finds are the arguments of the node. -/
theorem applied_of_means {values : List V} {literals : List Literal} (hn : g.node? id = some n)
    (hvalues : List.Forall₂ (fun input v => g.Means I host r (.input id input.2) v)
      t.inputs.zipIdx values)
    (hliterals : List.Forall₂ (fun p literal => parameterLiteral n p = .ok literal) t.parameters
      literals) : g.Applied I host r n t values literals := by
  refine ⟨?_, ?_, hliterals⟩
  · rw [← hvalues.length_eq, List.length_zipIdx]
  · intro index v hv
    obtain ⟨input, hinput, hmeans⟩ := getElem?_of_forall₂ hvalues hv
    rw [List.getElem?_zipIdx, Option.map_eq_some_iff] at hinput
    obtain ⟨port, -, rfl⟩ := hinput
    rw [node?_id hn]
    simpa using hmeans

/-- The variables that a node declares, and what it writes to them. -/
def writtenCells (I : Interpretation V) (t : NodeType) (template : Template) (stem : String)
    (values : List V) (literals : List Literal) : List (String × V) :=
  (t.outputs.filter (fun port => !port.uniform)).map
      (fun port => (outputVariable stem port, I.output t values literals port.name)) ++
    template.temporaries.map
      (fun name => (temporaryName stem name, I.temporary t values literals name))

theorem writtenCells_names (t : NodeType) (template : Template) (stem : String) (values : List V)
    (literals : List Literal) :
    (writtenCells I t template stem values literals).map Prod.fst =
      declaredNames t template stem := by
  rw [writtenCells, declaredNames, List.map_append, List.map_map, List.map_map]
  rfl

/-- The template finds the variables of the outputs. -/
theorem templateWrites_eq (hd : (t.outputs.map Port.name).Nodup) (template : Template)
    (stem : String) (inputs parameters : List (String × String)) (values : List V)
    (literals : List Literal) :
    templateWrites I t template (nodeBindings t stem inputs parameters) values literals =
      some (writtenCells I t template stem values literals) := by
  have hget : ∀ port ∈ t.outputs,
      (nodeBindings t stem inputs parameters).outputs.get? port.name =
        some (outputVariable stem port) := by
    intro port hport
    have hnames : (bindOutputs t stem).map Prod.fst = t.outputs.map Port.name := by
      rw [bindOutputs, List.map_map]
      rfl
    exact Dictionary.get?_ofList (hnames ▸ hd) (List.mem_map_of_mem hport)
  have houtputs : ((t.outputs.filter (fun port => !port.uniform)).mapM fun port => do
      return (← (nodeBindings t stem inputs parameters).outputs.get? port.name,
        I.output t values literals port.name)) =
      some ((t.outputs.filter (fun port => !port.uniform)).map
        fun port => (outputVariable stem port, I.output t values literals port.name)) := by
    refine mapM_eq_some.mpr (List.forall₂_map_right_iff.mpr (List.forall₂_same.mpr ?_))
    intro port hport
    rw [hget port (List.mem_of_mem_filter hport)]
    rfl
  simp only [templateWrites, houtputs]
  rfl

/-- A variable that a node declares is not set before. -/
theorem declared_unset (hs : g.schedule r prune = .ok s)
    (hsplit : s.order = before ++ id :: after) (hm : m.Agrees I host r g s start before)
    (htype : g.typeOf? r id = some t) {template : Template}
    (htemplate : t.parseTemplate = .ok template) {name : String}
    (hname : name ∈ declaredNames t template ((g.stems r).get id)) : m.store name = none := by
  by_contra hset
  have hlike := likeStem_of_mem_declaredNames (g.likeStem_stems r id) hname
  obtain ⟨a, ha, htaken⟩ := hm.owned name hlike hset
  have hne : a ≠ id := fun heq => not_mem_before hs hsplit (heq ▸ ha)
  have hmem {b : String} (hb : b ∈ before ++ id :: after) : b ∈ g.ids :=
    ((mem_order hs).mp (hsplit ▸ hb)).1
  refine taken_disjoint (hmem (List.mem_append_left _ ha)) (hmem (by simp)) hne htaken ?_
  rw [htype]
  exact declaredNames_subset htemplate _ hname

/-- The uniform outputs of a scheduled node hold their values. -/
theorem uniform_output (hs : g.schedule r prune = .ok s)
    (hsplit : s.order = before ++ id :: after)
    (hm : m.Agrees I host r g s (g.start builtin host r s) before) (hn : g.node? id = some n)
    (ht : r.type? n.typeId = some t) {port : Port} (hport : port ∈ t.outputs)
    (hu : port.uniform = true) :
    ∃ v, m.store (outputVariable ((g.stems r).get id) port) = some v ∧
      g.Means I host r (.output id port) v := by
  have hid : id ∈ s.order := by simp [hsplit]
  have htype := typeOf?_eq_some_iff.mpr ⟨n, hn, ht⟩
  refine ⟨_, ?_, .uniform (node?_mem hn) (node?_id hn) ht hport hu⟩
  rw [hm.uniforms _ (not_likeStem_outputVariable _ hu)]
  exact start_uniform hs hid (mem_uniformPorts.mpr ⟨t, htype, hport, hu⟩)

/-- A node without a statement leaves the machine as it is. -/
theorem blank_agrees (hr : r.Regular) (hs : g.schedule r prune = .ok s)
    (hsplit : s.order = before ++ id :: after)
    (hm : m.Agrees I host r g s (g.start builtin host r s) before) (hid : id ∉ before)
    (hn : g.node? id = some n) (ht : r.type? n.typeId = some t) {template : Template}
    (htemplate : t.parseTemplate = .ok template) (hblank : template.isBlank = true)
    {values : List V} {literals : List Literal}
    (happlied : g.Applied I host r n t values literals) :
    m.Agrees I host r g s (g.start builtin host r s) (before ++ [id]) := by
  have htype := typeOf?_eq_some_iff.mpr ⟨n, hn, ht⟩
  refine hm.extend hid (fun _ _ => rfl) (fun _ hnone hset => absurd hnone hset) ?_
    (fun _ => rfl) ?_
  · intro u hu port hport
    rw [htype] at hu
    cases hu
    have huniform := (hr t (Registry.type?_mem ht)).outputs_written template
      (by simp [htemplate, Except.toOption]) hblank port hport
    exact uniform_output hs hsplit hm hn ht hport huniform
  · rintro rfl u template' hu htemplate'
    rw [htype] at hu
    cases hu
    rw [htemplate] at htemplate'
    cases htemplate'
    refine ⟨_, ⟨n, t, values, literals, node?_mem hn, node?_id hn, ht, happlied, rfl⟩, ?_⟩
    rw [if_pos hblank, hm.unfinished hid]

/-- The variables of a node can be declared. -/
theorem declare_written (hr : r.Regular) (hs : g.schedule r prune = .ok s)
    (hsplit : s.order = before ++ id :: after) (hm : m.Agrees I host r g s start before)
    (hn : g.node? id = some n) (ht : r.type? n.typeId = some t) {template : Template}
    (htemplate : t.parseTemplate = .ok template) (values : List V) (literals : List Literal) :
    ∃ m', m.declareAll (writtenCells I t template ((g.stems r).get id) values literals) = some m' ∧
      m'.result = m.result ∧
      (∀ port ∈ t.outputs, port.uniform = false →
        m'.store (outputVariable ((g.stems r).get id) port) =
          some (I.output t values literals port.name)) ∧
      ∀ name, name ∉ declaredNames t template ((g.stems r).get id) →
        m'.store name = m.store name := by
  have hregular := hr t (Registry.type?_mem ht)
  have hnames := writtenCells_names (I := I) t template ((g.stems r).get id) values literals
  have hnodup : (declaredNames t template ((g.stems r).get id)).Nodup :=
    nodup_declaredNames hregular.outputs_nodup
      (hregular.temporaries_apart template (by simp [htemplate, Except.toOption]))
  have hunset : ∀ name ∈ declaredNames t template ((g.stems r).get id), m.store name = none :=
    fun name hname => declared_unset hs hsplit hm (typeOf?_eq_some_iff.mpr ⟨n, hn, ht⟩) htemplate
      hname
  rw [← hnames] at hnodup hunset
  obtain ⟨m', hm', hresult, hset, hkept⟩ := Machine.declareAll_of_unset hnodup hunset
  rw [hnames] at hkept
  refine ⟨m', hm', hresult, fun port hport hu => hset _ _ ?_, hkept⟩
  exact List.mem_append_left _ (List.mem_map.mpr
    ⟨port, mem_filter_not_uniform.mpr ⟨hport, hu⟩, rfl⟩)

/-- The statement of a node writes what the node means. -/
theorem statement_agrees (hr : r.Regular) (hg : g.WellFormed r) (hs : g.schedule r prune = .ok s)
    (hsplit : s.order = before ++ id :: after)
    (hm : m.Agrees I host r g s (g.start builtin host r s) before) (hid : id ∉ before)
    (hn : g.node? id = some n) (ht : r.type? n.typeId = some t) {template : Template}
    (htemplate : t.parseTemplate = .ok template) (hblank : ¬ template.isBlank = true)
    {values : List V} {literals : List Literal}
    (happlied : g.Applied I host r n t values literals) :
    ∃ m', ((m.declareAll (writtenCells I t template ((g.stems r).get id) values literals)).bind
        fun m => if t.category = .output then m.finish (I.result t values literals) else some m) =
        some m' ∧
      m'.Agrees I host r g s (g.start builtin host r s) (before ++ [id]) := by
  have htype := typeOf?_eq_some_iff.mpr ⟨n, hn, ht⟩
  obtain ⟨m₁, hm₁, hresult, hset, hkept⟩ := declare_written hr hs hsplit hm hn ht htemplate values
    literals
  rw [hm₁, Option.bind_some]
  -- whatever becomes of the result, the variables are in order
  have hagrees (m' : Machine V) (hstore : m'.store = m₁.store) :
      (id ≠ s.output → m'.result = m.result) → (id = s.output → m'.HasResult I host r g id) →
        m'.Agrees I host r g s (g.start builtin host r s) (before ++ [id]) := by
    refine hm.extend hid ?_ ?_ ?_
    · intro name hname
      rw [hstore]
      exact hkept name fun hdeclared =>
        hname (declared_unset hs hsplit hm htype htemplate hdeclared)
    · intro name hnone hnew
      rw [hstore] at hnew
      have hdeclared : name ∈ declaredNames t template ((g.stems r).get id) := by
        by_contra h
        exact hnew ((hkept name h).trans hnone)
      rw [htype]
      exact ⟨likeStem_of_mem_declaredNames (g.likeStem_stems r id) hdeclared,
        declaredNames_subset htemplate _ hdeclared⟩
    · intro u hu port hport
      rw [htype] at hu
      cases hu
      rw [hstore]
      cases huniform : port.uniform with
      | true =>
        obtain ⟨v, hv, hmeans⟩ := uniform_output hs hsplit hm hn ht hport huniform
        refine ⟨v, ?_, hmeans⟩
        rw [hkept, hv]
        exact fun h => not_likeStem_outputVariable _ huniform
          (likeStem_of_mem_declaredNames (g.likeStem_stems r id) h)
      | false =>
        exact ⟨_, hset port hport huniform, .computed (node?_mem hn) (node?_id hn) ht hport huniform
          happlied.1 (node?_id hn ▸ happlied.2.1) happlied.2.2⟩
  by_cases hc : t.category = .output
  · have hout := eq_output_of_category hr hg hs (by simp [hsplit]) htype hc
    have hnone : m₁.result = none := by rw [hresult, hm.unfinished (hout ▸ hid)]
    rw [if_pos hc, Machine.finish_of_none hnone]
    refine ⟨_, rfl, hagrees _ rfl (fun hne => absurd hout hne) ?_⟩
    intro _ u template' hu htemplate'
    rw [htype] at hu
    cases hu
    rw [htemplate] at htemplate'
    cases htemplate'
    refine ⟨_, ⟨n, t, values, literals, node?_mem hn, node?_id hn, ht, happlied, rfl⟩, ?_⟩
    rw [if_neg hblank]
  · rw [if_neg hc]
    refine ⟨m₁, rfl, hagrees m₁ rfl (fun _ => hresult) fun heq => ?_⟩
    exact absurd (category_output hg hs (heq ▸ htype)) hc

/-- A statement whose text is the rendered template of its node writes the variables of the node. -/
theorem execute_eq {template : Template} {inputs parameters : List (String × String)}
    {text : String} {values : List V} {literals : List Literal}
    (hd : (t.outputs.map Port.name).Nodup) (hn : g.node? id = some n)
    (ht : r.type? n.typeId = some t) (htemplate : t.parseTemplate = .ok template)
    (hinputs : bindInputs r g (g.stems r) id t = .ok inputs)
    (hparameters : bindParameters n t = .ok parameters)
    (htext : template.render (nodeBindings t ((g.stems r).get id) inputs parameters) = .ok text)
    (hvalues : g.inputValues I r m id t
      (nodeBindings t ((g.stems r).get id) inputs parameters) = some values)
    (hliterals : t.parameters.mapM (boundLiteral n
      (nodeBindings t ((g.stems r).get id) inputs parameters)) = some literals) :
    g.execute I r m ⟨id, declaredNames t template ((g.stems r).get id), text⟩ =
      (m.declareAll (writtenCells I t template ((g.stems r).get id) values literals)).bind fun m =>
        if t.category = .output then m.finish (I.result t values literals) else some m := by
  have hwrites := templateWrites_eq (I := I) hd template ((g.stems r).get id) inputs parameters
    values literals
  have hnames := writtenCells_names (I := I) t template ((g.stems r).get id) values literals
  simp [execute, hn, ht, htemplate, hinputs, hparameters, htext, hvalues, hliterals, hwrites,
    hnames, Except.toOption]

/-- What one node of the schedule writes keeps the invariant. -/
theorem step_agrees (hr : r.Regular) (hg : g.WellFormed r) (hs : g.schedule r prune = .ok s)
    (hsplit : s.order = before ++ id :: after)
    (hm : m.Agrees I host r g s (g.start builtin host r s) before) {f : Fragment}
    (hf : g.fragment r (g.stems r) id = .ok f) :
    ∃ m', g.run I r m f.statement.toList = some m' ∧
      m'.Agrees I host r g s (g.start builtin host r s) (before ++ [id]) := by
  have hid := not_mem_before hs hsplit
  obtain ⟨n, t, template, inputs, parameters, text, hn, ht, htemplate, hinputs, hparameters, htext,
    hfragment⟩ := fragment_eq_ok hf
  obtain ⟨values, hvalues, hmeans⟩ := inputValues_means hr hg hs hsplit hm hn ht hinputs
    ((g.stems r).get id) parameters
  obtain ⟨literals, hliterals, hresolved⟩ := boundLiterals_resolved hr ht hparameters
    ((g.stems r).get id) inputs
  have happlied := applied_of_means hn hmeans hresolved
  by_cases hblank : template.isBlank = true
  · have hstatement : f.statement = none := by rw [hfragment, if_pos hblank]
    rw [hstatement]
    exact ⟨m, rfl, blank_agrees hr hs hsplit hm hid hn ht htemplate hblank happlied⟩
  · have hstatement : f.statement =
        some ⟨id, declaredNames t template ((g.stems r).get id), text⟩ := by
      rw [hfragment, if_neg hblank]
    have hexecute := execute_eq (hr t (Registry.type?_mem ht)).outputs_nodup hn ht htemplate
      hinputs hparameters htext hvalues hliterals
    obtain ⟨m', hm', hagrees⟩ :=
      statement_agrees hr hg hs hsplit hm hid hn ht htemplate hblank happlied
    refine ⟨m', ?_, hagrees⟩
    rw [hstatement, Option.toList_some, run, List.foldlM_cons, hexecute, hm']
    rfl

/-- So does what the rest of the schedule writes. -/
theorem run_agrees (hr : r.Regular) (hg : g.WellFormed r) (hs : g.schedule r prune = .ok s)
    {rest : List String} {fragments : List Fragment}
    (hall : List.Forall₂ (fun id f => g.fragment r (g.stems r) id = .ok f) rest fragments)
    (hsplit : s.order = before ++ rest)
    (hm : m.Agrees I host r g s (g.start builtin host r s) before) :
    ∃ m', g.run I r m (fragments.filterMap Fragment.statement) = some m' ∧
      m'.Agrees I host r g s (g.start builtin host r s) s.order := by
  induction hall generalizing before m with
  | nil =>
    rw [List.append_nil] at hsplit
    exact ⟨m, rfl, hsplit ▸ hm⟩
  | @cons id f rest fragments hf _ ih =>
    obtain ⟨m₁, hm₁, hagrees⟩ := step_agrees hr hg hs hsplit hm hf
    obtain ⟨m', hm', hfinal⟩ := ih (by rw [hsplit, List.append_assoc]; rfl) hagrees
    refine ⟨m', ?_, hfinal⟩
    have hstatements : (f :: fragments).filterMap Fragment.statement =
        f.statement.toList ++ fragments.filterMap Fragment.statement := by
      cases hstatement : f.statement <;> simp [hstatement]
    rw [hstatements, run, List.foldlM_append]
    rw [run] at hm₁
    rw [hm₁]
    exact hm'

end Graph

/-- The statements that are written for a graph without errors compute what the graph means.
Starting with the uniforms alone, they run to the end: none reads a variable that is not set, and
none writes one that is. Then the variable of every output of a scheduled node holds the one value
that the graph gives to that output, and the result is the one that the output node gives, unless
the template of that node is blank. -/
theorem emission_preserves_meaning {V : Type} (I : Interpretation V) (builtin : String → V)
    (host : String → String → V) {r : Registry} {g : Graph} {prune : Bool} {s : Schedule}
    {entry : EntryPoint} {shader : Shader} (hr : r.Regular)
    (hvalid : errorsOf (g.validate r) = []) (hs : g.schedule r prune = .ok s)
    (hemit : g.emit r entry s = .ok shader) :
    (g.uniformCells builtin host r s).map Prod.fst = shader.uniforms.map Uniform.name ∧
    ∃ final, g.run I r (g.start builtin host r s) shader.statements = some final ∧
      (∀ id ∈ s.order, ∃ t, g.typeOf? r id = some t ∧ ∀ port ∈ t.outputs,
        ∃ v, final.store (outputVariable ((g.stems r).get id) port) = some v ∧
          ∀ w, g.Means I host r (.output id port) w ↔ w = v) ∧
      ∃ t template v, g.typeOf? r s.output = some t ∧ t.parseTemplate = .ok template ∧
        (∀ w, g.ResultMeans I host r s.output w ↔ w = v) ∧
        final.result = if template.isBlank then none else some v := by
  have hg := Graph.wellFormed_of_noErrors hvalid
  obtain ⟨fragments, hall, -, hstatements⟩ := Graph.emit_ok hemit
  have hnode : ∀ id ∈ s.order, ∃ t template, g.typeOf? r id = some t ∧
      t.parseTemplate = .ok template := by
    intro id hid
    obtain ⟨f, -, hf⟩ := exists_of_forall₂ hall hid
    obtain ⟨n, t, template, hn, ht, htemplate, -⟩ := Graph.fragment_ok hf
    exact ⟨t, template, Graph.typeOf?_eq_some_iff.mpr ⟨n, hn, ht⟩, htemplate⟩
  obtain ⟨final, hrun, hfinal⟩ := Graph.run_agrees (I := I) hr hg hs hall rfl Machine.agrees_start
  refine ⟨Graph.uniformCells_names hemit, final, hstatements ▸ hrun, fun id hid => ?_, ?_⟩
  · obtain ⟨t, -, ht, -⟩ := hnode id hid
    refine ⟨t, ht, fun port hport => ?_⟩
    obtain ⟨v, hv, hmeans⟩ := hfinal.outputs id hid t ht port hport
    exact ⟨v, hv, fun w => ⟨fun hw => hw.unique hg v hmeans, fun h => h ▸ hmeans⟩⟩
  · have hout := Graph.output_mem_order hs
    obtain ⟨t, template, ht, htemplate⟩ := hnode s.output hout
    obtain ⟨v, hmeans, hresult⟩ := hfinal.finished hout t template ht htemplate
    exact ⟨t, template, v, ht, htemplate,
      fun w => ⟨fun hw => hw.unique hg hmeans, fun h => h ▸ hmeans⟩, hresult⟩

/-- Some colors of the catalog, and one that the host chooses. -/
def palette : Registry :=
  { types := [Catalog.colorPicker, Catalog.mixColors, Catalog.fragmentOutput,
      { id := "tint"
        label := "Tint"
        category := .color
        outputs := [⟨"color", .output, .color, none, true⟩] }] }

theorem palette_regular : palette.Regular := by
  have inputs : ∀ t ∈ palette.types, (t.inputs.map Port.name).Nodup := by decide +kernel
  have outputs : ∀ t ∈ palette.types, (t.outputs.map Port.name).Nodup := by decide +kernel
  have parameters : ∀ t ∈ palette.types, (t.parameters.map Parameter.name).Nodup := by
    decide +kernel
  have apart : ∀ t ∈ palette.types, ∀ template ∈ t.parseTemplate.toOption,
      ∀ name ∈ template.temporaries, ∀ port ∈ t.outputs, port.uniform = false →
        port.name ≠ name := by decide +kernel
  have written : ∀ t ∈ palette.types, ∀ template ∈ t.parseTemplate.toOption,
      template.isBlank = true → ∀ port ∈ t.outputs, port.uniform = true := by decide +kernel
  have last : ∀ t ∈ palette.types, t.category = .output → t.outputs = [] := by
    decide +kernel
  exact fun t ht =>
    ⟨inputs t ht, outputs t ht, parameters t ht, apart t ht, written t ht, last t ht⟩

/-- A tint mixed with a color of the graph, half and half by default. -/
def tintedGraph : Graph :=
  { nodes := [⟨"o", "fragment_output", ∅⟩, ⟨"m", "mix_colors", ∅⟩, ⟨"c", "color_picker", ∅⟩,
      ⟨"t", "tint", ∅⟩]
    edges := [⟨"1", "t", none, "m", none⟩, ⟨"2", "c", none, "m", some "input2"⟩,
      ⟨"3", "m", some "result", "o", none⟩] }

/-- Counts the values that go into each value. -/
def counting : Interpretation Nat where
  literal _ := 1
  output _ values literals _ := values.foldl Nat.add literals.length
  temporary _ _ _ _ := 0
  result _ values _ := values.foldl Nat.add 0

theorem tinted_emission_preserves_meaning :
    ∃ s shader final, tintedGraph.schedule palette true = .ok s ∧
      tintedGraph.emit palette .main s = .ok shader ∧
      tintedGraph.run counting palette
        (tintedGraph.start (fun _ => 0) (fun _ _ => 5) palette s) shader.statements =
          some final ∧
      ∃ v, tintedGraph.ResultMeans counting (fun _ _ => 5) palette s.output v ∧
        final.result = some v := by
  have hsorted : tintedGraph.sortedEdges = tintedGraph.edges :=
    Graph.sortedEdges_of_pairwise (by decide)
  have hvalid : errorsOf (tintedGraph.validate palette) = [] := by
    simp only [Graph.validate, Graph.unresolvedEdges, Graph.unconnectedInputs,
      Graph.crowdedInputs, Graph.typeMismatches, Graph.connectedInputs, Graph.connections, hsorted]
    decide +kernel
  have hs : tintedGraph.schedule palette true = .ok ⟨["c", "t", "m", "o"], "o", []⟩ := by
    decide +kernel
  have hneeds : ((["c", "t", "m", "o"].mapM (tintedGraph.fragment palette
      (tintedGraph.stems palette))).map neededHelpers).toOption = some [] := by
    unfold Graph.fragment bindInputs incomingVariables
    rw [hsorted]
    decide +kernel
  have hwritten : ∀ t ∈ tintedGraph.typeOf? palette "o", ∀ template ∈ t.parseTemplate.toOption,
      template.isBlank = false := by decide +kernel
  cases hfragments : ["c", "t", "m", "o"].mapM (tintedGraph.fragment palette
      (tintedGraph.stems palette)) with
  | error e =>
    rw [hfragments] at hneeds
    cases hneeds
  | ok fragments =>
    rw [hfragments] at hneeds
    have hneeds : neededHelpers fragments = [] := by
      simpa [Except.map, Except.toOption] using hneeds
    obtain ⟨functions, hfunctions⟩ : ∃ functions,
        palette.helpersFor (neededHelpers fragments) = .ok functions := by
      rw [hneeds]
      exact ⟨_, bind_eq_ok.mpr ⟨[], by simp [Registry.closeHelpers], rfl⟩⟩
    have hemit : ∃ shader,
        tintedGraph.emit palette .main ⟨["c", "t", "m", "o"], "o", []⟩ = .ok shader :=
      ⟨_, bind_eq_ok.mpr ⟨fragments, hfragments, bind_eq_ok.mpr ⟨functions, hfunctions, rfl⟩⟩⟩
    obtain ⟨shader, hemit⟩ := hemit
    obtain ⟨-, final, hrun, -, t, template, v, ht, htemplate, hmeans, hresult⟩ :=
      emission_preserves_meaning counting (fun _ => 0) (fun _ _ => 5) palette_regular hvalid hs
        hemit
    have hblank := hwritten t ht template (by simp [htemplate, Except.toOption])
    rw [hblank] at hresult
    exact ⟨_, shader, final, hs, hemit, hrun, v, (hmeans v).mpr rfl, hresult⟩

end NodeShader
