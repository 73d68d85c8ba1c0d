import NodeShader.Catalog.Builder
import NodeShader.Proofs.Binding

/-!
# Rendering the template of a node

A template renders to the values of its segments, one after the other
(`Template.render_eq_ok_iff`). A node binds every name that its type declares, and a template is
accepted only if all its placeholders are declared, so that rendering never fails
(`exists_render`). Hence the template of a node is at fault exactly where it is refused
(`Graph.fragment_refused`, `Graph.fragment_template_error`).

* `Graph.emit_template_error_iff`: a schedule cannot be written because of a template exactly if
  the template of one of its nodes is refused.
-/

namespace NodeShader

/-! ## Templates -/

/-- A template renders to the values of its segments in turn. -/
theorem Template.render_eq_ok_iff {t : Template} {b : Bindings} {text : String} :
    t.render b = .ok text ↔ ∃ pieces,
      List.Forall₂ (fun s piece => renderSegment b s = .ok piece) t.segments pieces ∧
        text = String.join pieces := by
  constructor
  · intro h
    obtain ⟨pieces, hpieces, h⟩ := bind_eq_ok.mp h
    cases h
    exact ⟨pieces, mapM_eq_ok.mp hpieces, rfl⟩
  · rintro ⟨pieces, hpieces, rfl⟩
    exact bind_eq_ok.mpr ⟨pieces, mapM_eq_ok.mpr hpieces, rfl⟩

/-- What a placeholder renders to, given what is bound to its name. -/
def Template.bound (s : Segment) (value : Option String) : Except TemplateError String :=
  value.elim (.error (.unbound s)) .ok

theorem Template.bound_eq_ok_iff {s : Segment} {value : Option String} {piece : String} :
    bound s value = .ok piece ↔ value = some piece := by
  cases value <;> simp [bound]

theorem Template.renderSegment_input (b : Bindings) (name : String) :
    renderSegment b (.input name) = bound (.input name) (b.inputs.get? name) := by
  cases h : b.inputs.get? name <;> simp only [renderSegment, h] <;> rfl

theorem Template.renderSegment_output (b : Bindings) (name : String) :
    renderSegment b (.output name) = bound (.output name) (b.outputs.get? name) := by
  cases h : b.outputs.get? name <;> simp only [renderSegment, h] <;> rfl

theorem Template.renderSegment_parameter (b : Bindings) (name : String) :
    renderSegment b (.parameter name) = bound (.parameter name) (b.parameters.get? name) := by
  cases h : b.parameters.get? name <;> simp only [renderSegment, h] <;> rfl

/-- A template that is accepted has no placeholder that is not declared. -/
theorem NodeType.declares_of_parseTemplate {t : NodeType} {template : Template}
    (h : t.parseTemplate = .ok template) {s : Segment} (hs : s ∈ template.segments) :
    t.declares s = true := by
  obtain ⟨parsed, -, h⟩ := bind_eq_ok.mp h
  split at h
  next => cases h
  next hnone =>
    cases h
    simpa using List.find?_eq_none.mp hnone s hs

/-! ## The bindings of a node -/

section

variable {t : NodeType} {template : Template} (stem : String)
  {inputs parameters : List (String × String)}

theorem exists_renderSegment (hinputs : inputs.map Prod.fst = t.inputs.map Port.name)
    (hparameters : parameters.map Prod.fst = t.parameters.map Parameter.name) {s : Segment}
    (hs : t.declares s = true) :
    ∃ piece, Template.renderSegment (nodeBindings t stem inputs parameters) s = .ok piece := by
  have hfound {d : List (String × String)} {name : String} (h : name ∈ d.map Prod.fst) :
      ∃ piece, Template.bound s ((Dictionary.ofList d).get? name) = .ok piece := by
    obtain ⟨value, hvalue⟩ := Dictionary.exists_get?_ofList h
    exact ⟨value, Template.bound_eq_ok_iff.mpr hvalue⟩
  cases s with
  | text text => exact ⟨text, rfl⟩
  | temporary name => exact ⟨temporaryName stem name, rfl⟩
  | result => exact ⟨resultVariable, rfl⟩
  | input name =>
    rw [Template.renderSegment_input]
    refine hfound ?_
    rw [hinputs]
    simpa [NodeType.declares] using hs
  | output name =>
    rw [Template.renderSegment_output]
    refine hfound ?_
    rw [bindOutputs, List.map_map]
    simpa [NodeType.declares] using hs
  | parameter name =>
    rw [Template.renderSegment_parameter]
    refine hfound ?_
    rw [hparameters]
    simpa [NodeType.declares, NodeType.parameter?] using hs

/-- The template of a node can be rendered. -/
theorem exists_render (ht : t.parseTemplate = .ok template)
    (hinputs : inputs.map Prod.fst = t.inputs.map Port.name)
    (hparameters : parameters.map Prod.fst = t.parameters.map Parameter.name) :
    ∃ text, template.render (nodeBindings t stem inputs parameters) = .ok text := by
  cases h : template.render (nodeBindings t stem inputs parameters) with
  | ok text => exact ⟨text, rfl⟩
  | error e =>
    rcases bind_eq_error.mp h with h | ⟨_, _, h⟩
    · obtain ⟨before, s, after, hsplit, -, hs⟩ := mapM_eq_error.mp h
      have hdeclared := NodeType.declares_of_parseTemplate ht (s := s) (by simp [hsplit])
      obtain ⟨piece, hpiece⟩ := exists_renderSegment stem hinputs hparameters hdeclared
      rw [hs] at hpiece
      cases hpiece
    · cases h

end

/-! ## What is written for a node -/

namespace Graph

variable {r : Registry} {g : Graph} {stems : Stems} {id : String}

/-- A node is written once its template is accepted and its uniforms, inputs and parameters are
bound. -/
theorem fragment_rendered {n : Node} {t : NodeType} {template : Template} {uniforms : List Uniform}
    {inputs parameters : List (String × String)} (hn : g.node? id = some n)
    (ht : r.type? n.typeId = some t) (htemplate : t.parseTemplate = .ok template)
    (huniforms : nodeUniforms n t (stems.get id) = .ok uniforms)
    (hinputs : bindInputs r g stems id t = .ok inputs)
    (hparameters : bindParameters n t = .ok parameters) :
    ∃ text, template.render (nodeBindings t (stems.get id) inputs parameters) = .ok text ∧
      g.fragment r stems id = .ok ⟨t.id, uniforms, t.helpers,
        if template.isBlank then none
        else some ⟨id, declaredNames t template (stems.get id), text⟩⟩ := by
  obtain ⟨text, htext⟩ := exists_render (stems.get id) htemplate (bindInputs_names hinputs)
    (bindParameters_names hparameters)
  refine ⟨text, htext, ?_⟩
  simp only [fragment, hn, ht]
  refine bind_eq_ok.mpr ⟨template, mapError_eq_ok.mpr htemplate, ?_⟩
  refine bind_eq_ok.mpr ⟨uniforms, huniforms, ?_⟩
  refine bind_eq_ok.mpr ⟨inputs, hinputs, ?_⟩
  refine bind_eq_ok.mpr ⟨parameters, hparameters, ?_⟩
  split
  next => rfl
  next => exact bind_eq_ok.mpr ⟨text, mapError_eq_ok.mpr htext, rfl⟩

/-- What is written for a node, from its type, its template and what is bound. -/
theorem fragment_eq_ok {f : Fragment} (h : g.fragment r stems id = .ok f) :
    ∃ n t template inputs parameters text, g.node? id = some n ∧ r.type? n.typeId = some t ∧
      t.parseTemplate = .ok template ∧ bindInputs r g stems id t = .ok inputs ∧
      bindParameters n t = .ok parameters ∧
      template.render (nodeBindings t (stems.get id) inputs parameters) = .ok text ∧
      f = ⟨t.id, f.uniforms, t.helpers,
        if template.isBlank then none
        else some ⟨id, declaredNames t template (stems.get id), text⟩⟩ := by
  obtain ⟨n, t, template, hn, ht, htemplate, huniforms, ⟨inputs, hinputs⟩,
    ⟨parameters, hparameters⟩, -⟩ := fragment_ok h
  obtain ⟨text, htext, hwritten⟩ :=
    fragment_rendered hn ht htemplate huniforms hinputs hparameters
  exact ⟨n, t, template, inputs, parameters, text, hn, ht, htemplate, hinputs, hparameters, htext,
    Except.ok.inj (h.symm.trans hwritten)⟩

/-- The text of a node is its rendered template. -/
theorem fragment_statement {f : Fragment} {statement : Statement}
    (h : g.fragment r stems id = .ok f) (hs : f.statement = some statement) :
    ∃ n t template inputs parameters, g.node? id = some n ∧ r.type? n.typeId = some t ∧
      t.parseTemplate = .ok template ∧ bindInputs r g stems id t = .ok inputs ∧
      bindParameters n t = .ok parameters ∧
      template.render (nodeBindings t (stems.get id) inputs parameters) = .ok statement.text := by
  obtain ⟨n, t, template, inputs, parameters, text, hn, ht, htemplate, hinputs, hparameters, htext,
    hf⟩ := fragment_eq_ok h
  rw [hf] at hs
  dsimp only at hs
  split at hs
  next => cases hs
  next =>
    cases hs
    exact ⟨n, t, template, inputs, parameters, hn, ht, htemplate, hinputs, hparameters, htext⟩

/-- The needs of a node are those of its type. -/
theorem fragment_type {f : Fragment} (h : g.fragment r stems id = .ok f) :
    ∃ t, g.typeOf? r id = some t ∧ f.typeId = t.id ∧ f.helpers = t.helpers := by
  obtain ⟨n, t, _, _, _, _, hn, ht, -, -, -, -, hf⟩ := fragment_eq_ok h
  exact ⟨t, typeOf?_eq_some_iff.mpr ⟨n, hn, ht⟩, by rw [hf], by rw [hf]⟩

/-- If a type is at fault for a node that cannot be written, its template is refused. -/
theorem fragment_template_error {err : EmissionError} (h : g.fragment r stems id = .error err)
    (hi : err.isInternal = true) :
    ∃ n t cause, g.node? id = some n ∧ r.type? n.typeId = some t ∧
      t.parseTemplate = .error cause ∧ err = .template id t.id cause := by
  have hliteral {n : Node} {t : NodeType}
      (h : ∃ p ∈ t.parameters, parameterLiteral n p = .error err) : False := by
    obtain ⟨p, -, h⟩ := h
    obtain ⟨_, _, -, -, rfl⟩ := parameterLiteral_error h
    cases hi
  rw [fragment] at h
  cases hn : g.node? id with
  | none =>
    simp only [hn] at h
    cases h
    cases hi
  | some n =>
    simp only [hn] at h
    cases ht : r.type? n.typeId with
    | none =>
      simp only [ht] at h
      cases h
      cases hi
    | some t =>
      simp only [ht] at h
      rcases bind_eq_error.mp h with h | ⟨template, htemplate, h⟩
      · obtain ⟨cause, hcause, rfl⟩ := mapError_eq_error.mp h
        exact ⟨n, t, cause, rfl, ht, hcause, rfl⟩
      rcases bind_eq_error.mp h with h | ⟨uniforms, -, h⟩
      · exact (hliteral (nodeUniforms_error h)).elim
      rcases bind_eq_error.mp h with h | ⟨inputs, hinputs, h⟩
      · rcases bindInputs_error h with ⟨_, _, _, p, _, rfl⟩ | ⟨_, _, _, ⟨_, _, rfl⟩ | ⟨_, rfl⟩⟩
        · cases p <;> cases hi
        · cases hi
        · cases hi
      rcases bind_eq_error.mp h with h | ⟨parameters, hparameters, h⟩
      · exact (hliteral (bindParameters_error h)).elim
      split at h
      · cases h
      · rcases bind_eq_error.mp h with h | ⟨text, -, h⟩
        · obtain ⟨cause, hcause, -⟩ := mapError_eq_error.mp h
          obtain ⟨text, htext⟩ := exists_render (stems.get id) (mapError_eq_ok.mp htemplate)
            (bindInputs_names hinputs) (bindParameters_names hparameters)
          have hrender := htext.symm.trans hcause
          cases hrender
        · cases h

/-- A node whose template is refused cannot be written. -/
theorem fragment_refused {n : Node} {t : NodeType} {cause : TemplateError}
    (hn : g.node? id = some n) (ht : r.type? n.typeId = some t)
    (hcause : t.parseTemplate = .error cause) :
    g.fragment r stems id = .error (.template id t.id cause) := by
  simp only [fragment, hn, ht]
  exact bind_eq_error.mpr (.inl (mapError_eq_error.mpr ⟨cause, hcause, rfl⟩))

/-- A schedule cannot be written because of a template exactly if the nodes before some node are
written and the template of this node's type is refused, with the same error. No other template is
at fault: one that is accepted is rendered as soon as the node's names are bound, and the node is
written. -/
theorem emit_template_error_iff (r : Registry) (g : Graph) (entry : EntryPoint) (s : Schedule) :
    (∀ id typeId cause, g.emit r entry s = .error (.template id typeId cause) ↔
      ∃ before after n t, s.order = before ++ id :: after ∧
        (∀ a ∈ before, ∃ f, g.fragment r (g.stems r) a = .ok f) ∧
        g.node? id = some n ∧ r.type? n.typeId = some t ∧ t.id = typeId ∧
        t.parseTemplate = .error cause) ∧
    ∀ id n t template uniforms inputs parameters, g.node? id = some n →
      r.type? n.typeId = some t → t.parseTemplate = .ok template →
      nodeUniforms n t ((g.stems r).get id) = .ok uniforms →
      bindInputs r g (g.stems r) id t = .ok inputs → bindParameters n t = .ok parameters →
      ∃ text,
        template.render (nodeBindings t ((g.stems r).get id) inputs parameters) = .ok text ∧
        g.fragment r (g.stems r) id = .ok ⟨t.id, uniforms, t.helpers,
          if template.isBlank then none
          else some ⟨id, declaredNames t template ((g.stems r).get id), text⟩⟩ := by
  refine ⟨fun id typeId cause => ⟨fun h => ?_, ?_⟩, ?_⟩
  · rcases bind_eq_error.mp h with h | ⟨fragments, -, h⟩
    · obtain ⟨before, other, after, hsplit, hbefore, h⟩ := mapM_eq_error.mp h
      obtain ⟨n, t, _, hn, ht, hcause, heq⟩ := fragment_template_error h rfl
      cases heq
      exact ⟨before, after, n, t, hsplit, hbefore, hn, ht, rfl, hcause⟩
    -- all nodes are written, so that only a helper can be missing
    rcases bind_eq_error.mp h with h | ⟨functions, -, h⟩
    · obtain ⟨_, _, herr, -⟩ := Registry.helpersFor_error h
      cases herr
    · cases h
  · rintro ⟨before, after, n, t, hsplit, hbefore, hn, ht, rfl, hcause⟩
    refine bind_eq_error.mpr (.inl (mapM_eq_error.mpr ⟨before, id, after, hsplit, hbefore, ?_⟩))
    exact fragment_refused hn ht hcause
  · intro id n t template uniforms inputs parameters
    exact fragment_rendered

end Graph

/-- A type that declares each of its names twice. -/
def fadeType : NodeType :=
  { id := "fade"
    label := "Fade"
    category := .operation
    inputs := [Catalog.inputOr "a" .float (.float (.ofInt 1)),
      Catalog.inputOr "a" .float (.float (.ofInt 2))]
    outputs := [Catalog.output "b" .float, { Catalog.output "b" .float with uniform := true }]
    parameters := [.int "k" 3 0 9, .int "k" 4 0 9]
    template := Template.write [.output "b", .text " = ", .input "a", .text " * ",
      .parameter "k", .text ";"] }

/-- A type whose template reads an input that is not declared. -/
def blotType : NodeType :=
  { id := "blot"
    label := "Blot"
    category := .output
    inputs := [Catalog.inputOr "a" .float (.float (.ofInt 1))]
    template := Template.write [.result, .text " = vec4(", .input "a", .text ", ", .input "c",
      .text ");"] }

def fades : Registry := { types := [fadeType, blotType] }

def fadeGraph : Graph := { nodes := [⟨"f", "fade", ∅⟩, ⟨"o", "blot", ∅⟩] }

/-- Of two values of one name the later one is rendered, and the node with the other type is
refused. -/
theorem fadeGraph_template_error :
    fadeGraph.fragment fades (fadeGraph.stems fades) "f" =
      .ok ⟨"fade", [⟨"u_v_f_b", .float, none⟩], [], some ⟨"f", ["v_f_b"], "u_v_f_b = 2.0 * 4;"⟩⟩ ∧
    fadeGraph.emit fades .mainImage ⟨["f", "f", "o", "p"], "o", []⟩ =
      .error (.template "o" "blot" (.unbound (.input "c"))) := by
  have hsorted : fadeGraph.sortedEdges = [] := Graph.sortedEdges_of_pairwise .nil
  have hinputs : bindInputs fades fadeGraph (fadeGraph.stems fades) "f" fadeType =
      .ok [("a", "1.0"), ("a", "2.0")] := by
    unfold bindInputs incomingVariables
    rw [hsorted]
    decide +kernel
  obtain ⟨hiff, hrendered⟩ :=
    Graph.emit_template_error_iff fades fadeGraph .mainImage ⟨["f", "f", "o", "p"], "o", []⟩
  obtain ⟨text, htext, hfragment⟩ := hrendered "f" ⟨"f", "fade", ∅⟩ fadeType
    ⟨[.output "b", .text " = ", .input "a", .text " * ", .parameter "k", .text ";"]⟩
    [⟨"u_v_f_b", .float, none⟩] _ [("k", "3"), ("k", "4")] (by decide +kernel) (by decide +kernel)
    (by decide +kernel) (by decide +kernel) hinputs (by decide +kernel)
  obtain rfl : "u_v_f_b = 2.0 * 4;" = text := Except.ok.inj (.trans (by decide +kernel) htext)
  refine ⟨hfragment.trans (by decide +kernel), ?_⟩
  refine (hiff _ _ _).mpr ⟨["f", "f"], ["p"], ⟨"o", "blot", ∅⟩, blotType, rfl, ?_,
    by decide +kernel, by decide +kernel, rfl, by decide +kernel⟩
  simp [hfragment]

end NodeShader
