import NodeShader.Proofs.Agreement
import NodeShader.Proofs.Identifiers
import NodeShader.Proofs.Liveness
import NodeShader.Proofs.Rendering

/-!
# Declaration before use

What a statement reads for a connected input is a variable of the node at the other end. It is
declared before exactly if that node is scheduled (`Graph.offers_iff`): a scheduled node stands
before the nodes that it feeds, and no other node takes its names. A pruned schedule holds
all nodes that feed the nodes in it. A full one leaves out the output nodes that were not chosen,
but keeps what they feed.

* `Shader.ReadsDeclared`: nothing is read before it is declared;
* `unpruned_readsDeclared_iff`: this holds of a full schedule exactly if no statement is fed by an
  output node that was not chosen.
-/

namespace NodeShader

/-- Every type with an output that is a variable has a template that is not blank. -/
def Registry.OutputsWritten (r : Registry) : Prop :=
  ∀ t ∈ r.types, ∀ port ∈ t.outputs, port.uniform = false →
    ∀ template ∈ t.parseTemplate.toOption, template.isBlank = false

/-- The name is that of a uniform, or one that the statements `earlier` declare. -/
def Shader.Offers (shader : Shader) (earlier : List Statement) (name : String) : Prop :=
  name ∈ shader.uniforms.map Uniform.name ∨ ∃ statement ∈ earlier, name ∈ statement.declares

/-- Nothing is read before it is declared: every expression that is bound to an input of a
statement is the default of the input, which is then not connected, the name of a uniform, or a
name that an earlier statement declares. -/
def Shader.ReadsDeclared (r : Registry) (g : Graph) (shader : Shader) : Prop :=
  ∀ earlier statement later, shader.statements = earlier ++ statement :: later →
    ∃ t inputs, g.typeOf? r statement.node = some t ∧
      bindInputs r g (g.stems r) statement.node t = .ok inputs ∧
      ∀ index name expression, inputs[index]? = some (name, expression) →
        ∃ port, t.inputs[index]? = some port ∧ port.name = name ∧
          ((Graph.connectionsInto (g.connections r) statement.node index = [] ∧
              ∃ literal, port.default = some literal ∧ expression = literal.toGlsl) ∨
            shader.Offers earlier expression)

variable {r : Registry} {g : Graph} {prune : Bool} {s : Schedule} {entry : EntryPoint}
  {shader : Shader}

namespace Graph

/-! ## The variables of connections -/

theorem connection_typed {c : Connection} (hc : c ∈ g.connections r) :
    ∃ t, g.typeOf? r c.source = some t ∧ c.sourcePort ∈ t.outputs ∧ g.Feeds c.source c.target := by
  obtain ⟨e, he, hresolve⟩ := mem_connections.mp hc
  obtain ⟨source, target, i, hsource, htarget, -, hport, -, -, hcs, hct⟩ :=
    Edge.resolve_eq_ok_iff.mp hresolve
  rw [hcs, hct]
  exact ⟨source, hsource, List.mem_of_getElem? hport, mem_ids_of_typeOf? hsource,
    mem_ids_of_typeOf? htarget, e, he, rfl, rfl⟩

theorem exists_connection_of_feeds (hall : ∀ e ∈ g.edges, ∃ c, e.resolve r g = .ok c)
    {a b : String} (h : g.Feeds a b) : ∃ c ∈ g.connections r, c.source = a ∧ c.target = b := by
  obtain ⟨-, -, e, he, rfl, rfl⟩ := h
  obtain ⟨c, hc⟩ := hall e he
  obtain ⟨-, -, -, -, -, -, -, -, -, hsource, htarget⟩ := Edge.resolve_eq_ok_iff.mp hc
  exact ⟨c, mem_connections.mpr ⟨e, he, hc⟩, hsource, htarget⟩

theorem variable_mem_namesOf {c : Connection} (hc : c ∈ g.connections r) :
    c.variable (g.stems r) ∈ g.namesOf r c.source := by
  obtain ⟨t, ht, hport, -⟩ := connection_typed hc
  rw [namesOf, ht]
  exact outputVariable_mem_takenNames hport _

theorem variable_not_reserved (c : Connection) : c.variable (g.stems r) ∉ reservedNames := by
  cases hu : c.sourcePort.uniform with
  | true => exact not_reserved_of_uniform _ hu
  | false =>
    exact not_reserved_of_likeStem (likeStem_outputVariable (g.likeStem_stems r c.source) hu)

/-- What is connected to a node that can be written is its uniform or declared by its
statement. -/
theorem variable_brought (hr : r.OutputsWritten) {c : Connection} (hc : c ∈ g.connections r)
    {f : Fragment} (hf : g.fragment r (g.stems r) c.source = .ok f) :
    c.variable (g.stems r) ∈ g.uniformNames r c.source ∨
      c.variable (g.stems r) ∈ g.declaredBy r c.source := by
  obtain ⟨t, ht, hport, -⟩ := connection_typed hc
  cases hu : c.sourcePort.uniform with
  | true => exact .inl (mem_uniformNames.mpr ⟨t, c.sourcePort, ht, hport, hu, rfl⟩)
  | false =>
    refine .inr ?_
    obtain ⟨n, u, template, hn, hu', htemplate, -⟩ := fragment_ok hf
    have htype := typeOf?_eq_some_iff.mpr ⟨n, hn, hu'⟩
    rw [ht] at htype
    cases htype
    have hblank : template.isBlank = false :=
      hr t (Registry.type?_mem hu') c.sourcePort hport hu template (toOption_eq_some.mpr htemplate)
    rw [declaredBy_eq ht htemplate, hblank]
    exact List.mem_append_left _
      (List.mem_map.mpr ⟨c.sourcePort, mem_filter_not_uniform.mpr ⟨hport, hu⟩, rfl⟩)

/-! ## What is declared -/

/-- A scheduled node has a statement unless its template is blank. -/
theorem exists_statement (h : g.emit r entry s = .ok shader) {id : String} (hid : id ∈ s.order)
    (hwritten : ∀ t ∈ g.typeOf? r id, ∀ template ∈ t.parseTemplate.toOption,
      template.isBlank = false) : ∃ statement ∈ shader.statements, statement.node = id := by
  obtain ⟨fragments, hall, -, hstatements⟩ := emit_ok h
  obtain ⟨f, hmem, hf⟩ := exists_of_forall₂ hall hid
  obtain ⟨n, t, template, hn, ht, htemplate, -, -, -, hstatement⟩ := fragment_ok hf
  have hblank := hwritten t (typeOf?_eq_some_iff.mpr ⟨n, hn, ht⟩) template
    (toOption_eq_some.mpr htemplate)
  rw [HasStatement, hblank] at hstatement
  obtain ⟨text, htext⟩ := hstatement
  rw [hstatements]
  exact ⟨_, List.mem_filterMap.mpr ⟨f, hmem, htext⟩, rfl⟩

/-- The statements before one of the statements are those of the nodes before its node. -/
theorem statements_split {order : List String} {fragments : List Fragment}
    (hall : List.Forall₂ (fun id f => g.fragment r (g.stems r) id = .ok f) order fragments)
    {earlier later : List Statement} {statement : Statement}
    (hsplit : fragments.filterMap Fragment.statement = earlier ++ statement :: later) :
    ∃ before after f, order = before ++ statement.node :: after ∧
      g.fragment r (g.stems r) statement.node = .ok f ∧
      earlier.flatMap Statement.declares = before.flatMap (g.declaredBy r) := by
  obtain ⟨first, rest, rfl, rfl, hrest⟩ := List.filterMap_eq_append_iff.mp hsplit
  obtain ⟨silent, f, last, rfl, hsilent, hf, -⟩ := List.filterMap_eq_cons_iff.mp hrest
  rw [← List.append_assoc] at hall
  have hbefore := List.forall₂_take_append _ _ _ hall
  have hafter := List.forall₂_drop_append _ _ _ hall
  obtain ⟨id, after, hid, -, hdrop⟩ := List.forall₂_cons_right_iff.mp hafter
  have hnode : statement.node = id := node_of_statement hid hf
  subst hnode
  refine ⟨order.take (first ++ silent).length, after, f, ?_, hid, ?_⟩
  · rw [← hdrop, List.take_append_drop]
  · rw [← fragments_declares hbefore, List.filterMap_append,
      List.filterMap_eq_nil_iff.mpr hsilent, List.append_nil]

/-- What feeds a statement is declared before it exactly if it is scheduled. -/
theorem offers_iff (hr : r.OutputsWritten) (hs : g.schedule r prune = .ok s)
    (h : g.emit r entry s = .ok shader) {before after : List String} {c : Connection}
    (hsplit : s.order = before ++ c.target :: after) {earlier : List Statement}
    (hearlier : earlier.flatMap Statement.declares = before.flatMap (g.declaredBy r))
    (hc : c ∈ g.connections r) :
    shader.Offers earlier (c.variable (g.stems r)) ↔ c.source ∈ s.order := by
  obtain ⟨uniforms, huniforms, hnames, -⟩ := shader_names h
  obtain ⟨t, ht, -, hfeeds⟩ := connection_typed hc
  have hid {id : String} (hin : id ∈ s.order) : id ∈ g.ids := ((mem_order hs).mp hin).1
  rw [Shader.Offers, ← List.mem_flatMap, hearlier, huniforms, List.map_append, hnames,
    List.mem_append]
  constructor
  · -- a node that takes the name is the source
    have hsource (id : String) (hin : id ∈ s.order)
        (htaken : c.variable (g.stems r) ∈ g.namesOf r id) : c.source ∈ s.order := by
      by_contra hout
      have hne : id ≠ c.source := fun heq => hout (heq ▸ hin)
      exact taken_disjoint (hid hin) hfeeds.1 hne htaken (variable_mem_namesOf hc)
    rintro ((hbuiltin | hname) | hname)
    · exact absurd (List.mem_append_left _ hbuiltin) (variable_not_reserved c)
    · obtain ⟨id, hin, hname⟩ := List.mem_flatMap.mp hname
      exact hsource id hin (uniformNames_subset hname)
    · obtain ⟨id, hin, hname⟩ := List.mem_flatMap.mp hname
      exact hsource id (hsplit ▸ List.mem_append_left _ hin) (declaredBy_subset hname)
  · intro hin
    obtain ⟨fragments, hall, -, -⟩ := emit_ok h
    obtain ⟨f, -, hf⟩ := exists_of_forall₂ hall hin
    have hkept := ((mem_order hs).mp hin).2
    have hbefore : c.source ∈ before :=
      schedule_feedersFirst hs before _ after hsplit _ ⟨hfeeds, hkept⟩
    rcases variable_brought hr hc hf with hname | hname
    · exact .inl (.inr (List.mem_flatMap.mpr ⟨c.source, hin, hname⟩))
    · exact .inr (List.mem_flatMap.mpr ⟨c.source, hbefore, hname⟩)

/-! ## What is read -/

/-- What is bound to a connected input is the variable of its connection. -/
theorem connection_bound {stems : Stems} {c : Connection} {t : NodeType}
    {inputs : List (String × String)} (ht : g.typeOf? r c.target = some t)
    (h : bindInputs r g stems c.target t = .ok inputs) (hc : c ∈ g.connections r) :
    ∃ name, inputs[c.targetIndex]? = some (name, c.variable stems) := by
  obtain ⟨n, u, hnu, hid, hlt, -⟩ := exists_typedNode_of_mem_connections hc
  obtain ⟨hn, hu⟩ := mem_typedNodes.mp hnu
  have hsame := typeOf?_eq_some_iff.mpr ⟨n, hid ▸ hn, hu⟩
  rw [ht] at hsame
  cases hsame
  have hlength : c.targetIndex < inputs.length := by
    have heq := congrArg List.length (bindInputs_names h)
    rw [List.length_map, List.length_map] at heq
    omega
  obtain ⟨⟨name, expression⟩, hentry⟩ : ∃ entry, inputs[c.targetIndex]? = some entry :=
    ⟨_, List.getElem?_eq_getElem hlength⟩
  obtain ⟨port, -, -, hexpression⟩ := expression_at h hentry
  have hinto : c.variable stems ∈ (connectionsInto (g.connections r) c.target c.targetIndex).map
      (Connection.variable stems) :=
    List.mem_map_of_mem (mem_connectionsInto.mpr ⟨hc, rfl, rfl⟩)
  rcases inputExpression_eq_ok_iff.mp hexpression with hsources | ⟨hnone, -⟩
  · rw [hsources, List.mem_singleton] at hinto
    exact ⟨name, hinto ▸ hentry⟩
  · rw [hnone] at hinto
    cases hinto

/-- What is bound to the inputs of a node are defaults and the variables of its connections. -/
theorem bound_iff {stems : Stems} {id : String} {t : NodeType} {inputs : List (String × String)}
    (ht : g.typeOf? r id = some t) (h : bindInputs r g stems id t = .ok inputs)
    (p : String → Prop) :
    (∀ index name expression, inputs[index]? = some (name, expression) →
      ∃ port, t.inputs[index]? = some port ∧ port.name = name ∧
        ((connectionsInto (g.connections r) id index = [] ∧
            ∃ literal, port.default = some literal ∧ expression = literal.toGlsl) ∨
          p expression)) ↔
      ∀ c ∈ g.connections r, c.target = id → p (c.variable stems) := by
  constructor
  · rintro hbound c hc rfl
    obtain ⟨name, hentry⟩ := connection_bound ht h hc
    obtain ⟨port, -, -, hread⟩ := hbound _ _ _ hentry
    have hinto : c ∈ connectionsInto (g.connections r) c.target c.targetIndex :=
      mem_connectionsInto.mpr ⟨hc, rfl, rfl⟩
    exact hread.resolve_left fun hdefault => List.ne_nil_of_mem hinto hdefault.1
  · intro hall index name expression hentry
    obtain ⟨port, hport, hname, hexpression⟩ := expression_at h hentry
    refine ⟨port, hport, hname, ?_⟩
    rcases inputExpression_eq_ok_iff.mp hexpression with hsources | ⟨hnone, hdefault⟩
    · obtain ⟨c, hinto, rfl⟩ := List.map_eq_singleton_iff.mp hsources
      have hmem : c ∈ connectionsInto (g.connections r) id index :=
        hinto ▸ List.mem_singleton_self c
      obtain ⟨hc, htarget, -⟩ := mem_connectionsInto.mp hmem
      exact .inr (hall c hc htarget)
    · exact .inl ⟨List.map_eq_nil_iff.mp hnone, hdefault⟩

/-- Nothing is read before it is declared exactly if what feeds the statements is scheduled. -/
theorem readsDeclared_iff (hr : r.OutputsWritten) (hs : g.schedule r prune = .ok s)
    (h : g.emit r entry s = .ok shader) :
    shader.ReadsDeclared r g ↔ ∀ statement ∈ shader.statements, ∀ c ∈ g.connections r,
      c.target = statement.node → c.source ∈ s.order := by
  obtain ⟨fragments, hall, -, hstatements⟩ := emit_ok h
  have hsplits {earlier later : List Statement} {statement : Statement}
      (hsplit : shader.statements = earlier ++ statement :: later) :=
    statements_split hall (hstatements ▸ hsplit)
  constructor
  · intro hreads statement hmem c hc htarget
    obtain ⟨earlier, later, hsplit⟩ := List.append_of_mem hmem
    obtain ⟨before, after, f, horder, -, hearlier⟩ := hsplits hsplit
    obtain ⟨t, inputs, ht, hinputs, hbound⟩ := hreads earlier statement later hsplit
    rw [← htarget] at horder
    have hoffers := (bound_iff ht hinputs _).mp hbound c hc htarget
    exact (offers_iff hr hs h horder hearlier hc).mp hoffers
  · intro hfed earlier statement later hsplit
    obtain ⟨before, after, f, horder, hf, hearlier⟩ := hsplits hsplit
    obtain ⟨n, t, template, hn, ht, -, -, ⟨inputs, hinputs⟩, -⟩ := fragment_ok hf
    have htype := typeOf?_eq_some_iff.mpr ⟨n, hn, ht⟩
    refine ⟨t, inputs, htype, hinputs, (bound_iff htype hinputs _).mpr fun c hc htarget => ?_⟩
    have hmem : statement ∈ shader.statements := by simp [hsplit]
    refine (offers_iff hr hs h (htarget ▸ horder) hearlier hc).mpr ?_
    exact hfed statement hmem c hc htarget

end Graph

/-- In a shader that is written without pruning for a graph without errors, nothing is read before
it is declared if and only if no statement is fed by an output node that was not chosen: such a
node is left out, and what it feeds is not. -/
theorem unpruned_readsDeclared_iff (hr : r.OutputsWritten)
    (hvalid : errorsOf (g.validate r) = []) :
    ∃ s, g.schedule r false = .ok s ∧ ∀ entry shader, g.emit r entry s = .ok shader →
      (shader.ReadsDeclared r g ↔ ∀ statement ∈ shader.statements, ∀ id,
        g.Feeds id statement.node → g.IsOutput r id → id = s.output) := by
  obtain ⟨s, hs⟩ := Graph.exists_schedule hvalid false
  refine ⟨s, hs, fun entry shader h => ?_⟩
  rw [Graph.readsDeclared_iff hr hs h]
  refine forall₂_congr fun statement _ => ?_
  have hscheduled {id : String} (hid : id ∈ g.ids) :
      id ∈ s.order ↔ (g.IsOutput r id → id = s.output) := by
    rw [Graph.mem_order hs, Graph.isKept_false, Graph.isOutput_iff]
    tauto
  constructor
  · intro hall id hfeeds
    obtain ⟨c, hc, rfl, htarget⟩ :=
      Graph.exists_connection_of_feeds (Graph.resolve_of_noErrors hvalid) hfeeds
    exact (hscheduled hfeeds.1).mp (hall c hc htarget)
  · intro hall c hc htarget
    obtain ⟨t, -, -, hfeeds⟩ := Graph.connection_typed hc
    exact (hscheduled hfeeds.1).mpr (hall c.source (htarget ▸ hfeeds))

/-- A preview is an output that passes its color on; an inverter is none. -/
def previews : Registry :=
  { types := [
      { id := "preview"
        label := "Preview"
        category := .output
        inputs := [Catalog.inputOr "color" .color (.color (.ofInt 1) (.ofInt 1) (.ofInt 1))]
        outputs := [Catalog.output "color" .color]
        template := Template.write ["vec3 ", .output "color", " = ", .input "color", ";\n", .result,
          " = vec4(", .output "color", ", 1.0);"] },
      { id := "invert"
        label := "Invert"
        category := .color
        inputs := [Catalog.input "color" .color]
        outputs := [Catalog.output "color" .color]
        template := Template.write ["vec3 ", .output "color", " = vec3(1.0) - ", .input "color",
          ";"] }] }

theorem previews_outputsWritten : previews.OutputsWritten := by
  unfold Registry.OutputsWritten
  decide +kernel

/-- Two previews, and an inverter that one of them feeds. -/
def previewGraph (source : String) : Graph :=
  { nodes := [⟨"a", "preview", ∅⟩, ⟨"b", "preview", ∅⟩, ⟨"c", "invert", ∅⟩]
    edges := [⟨"e", source, none, "c", none⟩] }

/-- Whichever preview feeds the inverter, the first one is chosen, and the other one is left out. -/
theorem previewGraph_written {source : String} (h : source = "a" ∨ source = "b") :
    errorsOf ((previewGraph source).validate previews) = [] ∧
      (previewGraph source).schedule previews false = .ok ⟨["a", "c"], "a", [["c"]]⟩ ∧
      ∃ shader, (previewGraph source).emit previews .main ⟨["a", "c"], "a", [["c"]]⟩ = .ok shader ∧
        ∃ statement ∈ shader.statements, statement.node = "c" := by
  have hsorted : (previewGraph source).sortedEdges = (previewGraph source).edges :=
    Graph.sortedEdges_of_pairwise (List.pairwise_singleton _ _)
  have hneeds : ((["a", "c"].mapM ((previewGraph source).fragment previews
      ((previewGraph source).stems previews))).map neededHelpers).toOption = some [] := by
    unfold Graph.fragment bindInputs incomingVariables
    rw [hsorted]
    rcases h with rfl | rfl <;> decide +kernel
  obtain ⟨shader, hshader⟩ := @Graph.exists_emit previews (previewGraph source) .main
    ⟨["a", "c"], "a", [["c"]]⟩ hneeds
  refine ⟨?_, ?_, shader, hshader, Graph.exists_statement hshader (by simp) ?_⟩
  · simp only [Graph.validate, Graph.unresolvedEdges, Graph.unconnectedInputs,
      Graph.crowdedInputs, Graph.typeMismatches, Graph.connectedInputs, Graph.connections, hsorted]
    rcases h with rfl | rfl <;> decide +kernel
  · rcases h with rfl | rfl <;> decide +kernel
  · rcases h with rfl | rfl <;> decide +kernel

theorem chosen_preview_declared :
    previews.OutputsWritten ∧ errorsOf ((previewGraph "a").validate previews) = [] ∧
      ∃ s shader, (previewGraph "a").schedule previews false = .ok s ∧
        (previewGraph "a").emit previews .main s = .ok shader ∧
        (∃ statement ∈ shader.statements, statement.node = "c") ∧
        shader.ReadsDeclared previews (previewGraph "a") := by
  obtain ⟨hvalid, hs, shader, hshader, hstatement⟩ := previewGraph_written (.inl rfl)
  obtain ⟨s, hs', hiff⟩ := unpruned_readsDeclared_iff previews_outputsWritten hvalid
  rw [hs] at hs'
  cases hs'
  refine ⟨previews_outputsWritten, hvalid, _, shader, hs, hshader, hstatement, ?_⟩
  refine (hiff .main shader hshader).mpr fun statement _ id hfeeds _ => ?_
  obtain ⟨-, -, e, he, rfl, -⟩ := hfeeds
  rw [List.mem_singleton.mp he]

/-- The inverter reads the color of a preview that is not written, although no error is
reported. -/
theorem spare_preview_undeclared :
    previews.OutputsWritten ∧ errorsOf ((previewGraph "b").validate previews) = [] ∧
      ∃ s shader, (previewGraph "b").schedule previews false = .ok s ∧
        (previewGraph "b").emit previews .main s = .ok shader ∧
        ¬ shader.ReadsDeclared previews (previewGraph "b") := by
  obtain ⟨hvalid, hs, shader, hshader, statement, hstatement, hnode⟩ :=
    previewGraph_written (.inr rfl)
  refine ⟨previews_outputsWritten, hvalid, _, shader, hs, hshader, fun hreads => ?_⟩
  have hfeeds : (previewGraph "b").Feeds "b" statement.node := by
    rw [hnode]
    exact ⟨by decide +kernel, by decide +kernel, _, List.mem_singleton_self _, rfl, rfl⟩
  obtain ⟨c, hc, hsource, htarget⟩ :=
    Graph.exists_connection_of_feeds (Graph.resolve_of_noErrors hvalid) hfeeds
  have hin := (Graph.readsDeclared_iff previews_outputsWritten hs hshader).mp hreads statement
    hstatement c hc htarget
  rw [hsource] at hin
  exact absurd hin (by decide)

end NodeShader
