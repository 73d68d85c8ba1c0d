import NodeShader.Proofs.Characters
import NodeShader.Proofs.Rendering

/-!
# Tidy texts

A registry is tidy if its texts are (`Registry.Tidy`): each template is accepted, the brackets of
its own texts are nested, and no comment begins in it. What a node puts into its template opens no
bracket for good and begins no comment either (`tidy_nodeBindings`), so the brackets of a rendered
template are nested like those of the template (`Template.Tidy.nests_render`).
-/

namespace NodeShader

open Glsl (Nests Plain isBracket nest Uncommented)

/-! ## Literals -/

/-- A literal without brackets of its own; only an option of a parameter may have them. -/
def Literal.IsPlain : Literal → Prop
  | select option => Plain option.toList
  | _ => True

instance : (l : Literal) → Decidable l.IsPlain
  | .select option => inferInstanceAs (Decidable (Plain option.toList))
  | .float _ | .int _ | .vec2 .. | .vec3 .. | .vec4 .. | .color .. =>
    inferInstanceAs (Decidable True)

theorem nests_constructorText {name : String} (hname : Plain name.toList)
    (components : List Single) : Nests [] (constructorText name components).toList [] := by
  have hcomponents : Plain (", ".intercalate (components.map floatText)).toList := by
    rw [String.toList_intercalate, List.map_map]
    refine plain_intercalate (by decide) fun text htext => ?_
    obtain ⟨x, -, rfl⟩ := List.mem_map.mp htext
    exact plain_floatText x
  have hopen : Nests [] "(".toList ['('] := by decide
  have hclose : Nests ['('] ")".toList [] := by decide
  simp only [constructorText, String.toList_append]
  exact (((hname.nests []).append hopen).append (hcomponents.nests ['('])).append hclose

theorem Literal.IsPlain.nests {l : Literal} (h : l.IsPlain) : Nests [] l.toGlsl.toList [] := by
  cases l with
  | float x => exact (plain_floatText x).nests []
  | int n => exact (plain_toString n).nests []
  | vec2 x y => exact nests_constructorText (by decide) _
  | vec3 x y z => exact nests_constructorText (by decide) _
  | vec4 x y z w => exact nests_constructorText (by decide) _
  | color r g b => exact nests_constructorText (by decide) _
  | select option => exact Plain.nests h []

/-- A value resolves to a literal without brackets, if no option has them. -/
theorem Parameter.isPlain_of_resolve {p : Parameter} {value : ParameterValue} {literal : Literal}
    (hoptions : ∀ option ∈ p.options, Plain option.toList) (h : p.resolve value = .ok literal) :
    literal.IsPlain := by
  unfold resolve at h
  cases htype : p.type <;> simp only [htype] at h
  case float =>
    obtain ⟨_, _, h⟩ := bind_eq_ok.mp h
    obtain ⟨_, _, h⟩ := bind_eq_ok.mp h
    cases h
    trivial
  case int =>
    obtain ⟨_, _, h⟩ := bind_eq_ok.mp h
    split at h
    · cases h
      trivial
    · cases h
  case select =>
    cases value with
    | text text =>
      dsimp only at h
      split at h
      next hmem =>
        cases h
        exact hoptions text (by simpa using hmem)
      next => cases h
    | _ => cases h
  case color =>
    cases value with
    | text text =>
      dsimp only at h
      split at h
      · cases h
        trivial
      · cases h
    | _ =>
      obtain ⟨_, _, h⟩ := bind_eq_ok.mp h
      split at h
      · cases h
        trivial
      · cases h
  -- the three vectors
  all_goals
    obtain ⟨_, _, h⟩ := bind_eq_ok.mp h
    split at h
    · cases h
      trivial
    · cases h

theorem isPlain_parameterLiteral {n : Node} {p : Parameter} {literal : Literal}
    (hdefault : p.default.IsPlain) (hoptions : ∀ option ∈ p.options, Plain option.toList)
    (h : parameterLiteral n p = .ok literal) : literal.IsPlain := by
  rw [parameterLiteral] at h
  split at h
  next =>
    cases h
    exact hdefault
  next =>
    split at h
    next hresolve =>
      cases h
      exact Parameter.isPlain_of_resolve hoptions hresolve
    next => cases h

/-! ## Templates -/

/-- A text in which and with whose last character no comment begins, or the name of a variable. -/
def Segment.Tidy : Segment → Prop
  | text s => Uncommented s.toList ∧ '/' ∉ s.toList.getLast?
  | temporary name => Plain name.toList
  | _ => True

instance : (s : Segment) → Decidable s.Tidy
  | .text s => inferInstanceAs (Decidable (Uncommented s.toList ∧ '/' ∉ s.toList.getLast?))
  | .temporary name => inferInstanceAs (Decidable (Plain name.toList))
  | .input _ | .output _ | .parameter _ | .result => inferInstanceAs (Decidable True)

/-- The characters of the texts among these segments. -/
def frameChars (segments : List Segment) : List Char :=
  segments.flatMap fun
    | .text s => s.toList
    | _ => []

/-- A template whose texts are nested without what stands between them. -/
structure Template.Tidy (t : Template) : Prop where
  segments : ∀ s ∈ t.segments, s.Tidy
  nest : nest [] (frameChars t.segments) = some []

instance (t : Template) : Decidable t.Tidy :=
  decidable_of_iff ((∀ s ∈ t.segments, s.Tidy) ∧ nest [] (frameChars t.segments) = some [])
    ⟨fun ⟨h, h'⟩ => ⟨h, h'⟩, fun ⟨h, h'⟩ => ⟨h, h'⟩⟩

/-- What is bound may stand anywhere in a text. -/
structure Bindings.Tidy (b : Bindings) : Prop where
  inputs : ∀ name value, b.inputs.get? name = some value → Nests [] value.toList []
  outputs : ∀ name value, b.outputs.get? name = some value → Nests [] value.toList []
  parameters : ∀ name value, b.parameters.get? name = some value → Nests [] value.toList []
  stem : Plain b.stem.toList
  result : Plain b.result.toList

/-- The value of a placeholder may stand anywhere, and a text stands for itself. -/
theorem Bindings.Tidy.nests_renderSegment {b : Bindings} (hb : b.Tidy) {s : Segment}
    (hs : s.Tidy) {piece : String} (h : Template.renderSegment b s = .ok piece) :
    s = .text piece ∨ frameChars [s] = [] ∧ Nests [] piece.toList [] := by
  have hlook {d : Dictionary String} {name : String}
      (hd : ∀ name value, d.get? name = some value → Nests [] value.toList [])
      (h : Template.bound s (d.get? name) = .ok piece) : Nests [] piece.toList [] :=
    hd name piece (Template.bound_eq_ok_iff.mp h)
  cases s with
  | text text =>
    cases h
    exact .inl rfl
  | input name =>
    rw [Template.renderSegment_input] at h
    exact .inr ⟨rfl, hlook hb.inputs h⟩
  | output name =>
    rw [Template.renderSegment_output] at h
    exact .inr ⟨rfl, hlook hb.outputs h⟩
  | parameter name =>
    rw [Template.renderSegment_parameter] at h
    exact .inr ⟨rfl, hlook hb.parameters h⟩
  | temporary name =>
    cases h
    exact .inr ⟨rfl, (plain_temporaryName hb.stem hs).nests []⟩
  | result =>
    cases h
    exact .inr ⟨rfl, hb.result.nests []⟩

/-- The values of segments lead through the brackets as the texts among the segments do. -/
theorem Bindings.Tidy.nests_pieces {b : Bindings} (hb : b.Tidy) {segments : List Segment}
    {pieces : List String} {opened closed : List Char}
    (hall : List.Forall₂ (fun s piece => Template.renderSegment b s = .ok piece) segments pieces)
    (hs : ∀ s ∈ segments, s.Tidy) (hframe : nest opened (frameChars segments) = some closed) :
    Nests opened (pieces.flatMap String.toList) closed := by
  induction hall generalizing opened with
  | nil =>
    cases hframe
    exact .nil
  | @cons s piece segments pieces hpiece _ ih =>
    obtain ⟨hfirst, hrest⟩ := List.forall_mem_cons.mp hs
    rw [List.flatMap_cons]
    rcases hb.nests_renderSegment hfirst hpiece with rfl | ⟨hnil, hnests⟩
    · rw [show frameChars (.text piece :: segments) = piece.toList ++ frameChars segments from rfl,
        Glsl.nest_append] at hframe
      obtain ⟨between, hbetween, hframe⟩ := Option.bind_eq_some_iff.mp hframe
      exact Nests.append ⟨hfirst.1, hfirst.2, hbetween⟩ (ih hrest hframe)
    · rw [show frameChars (s :: segments) = frameChars [s] ++ frameChars segments by
          simp [frameChars], hnil] at hframe
      exact (hnests.anywhere opened).append (ih hrest hframe)

theorem Template.Tidy.nests_render {t : Template} (ht : t.Tidy) {b : Bindings} (hb : b.Tidy)
    {text : String} (h : t.render b = .ok text) : Nests [] text.toList [] := by
  obtain ⟨pieces, hpieces, rfl⟩ := render_eq_ok_iff.mp h
  rw [String.toList_join]
  exact hb.nests_pieces hpieces ht.segments ht.nest

/-! ## Tidy registries -/

/-- A node type all of whose texts are in order. -/
structure NodeType.Tidy (t : NodeType) : Prop where
  template : ∃ template, t.parseTemplate = .ok template ∧ template.Tidy
  inputs : ∀ port ∈ t.inputs, port.direction = .input ∧ ∀ literal ∈ port.default, literal.IsPlain
  outputs : ∀ port ∈ t.outputs, Plain port.name.toList
  parameters : ∀ p ∈ t.parameters,
    p.default.IsPlain ∧ ∀ option ∈ p.options, Plain option.toList
  parameters_nodup : (t.parameters.map Parameter.name).Nodup

/-- A registry of tidy types in which every helper that is called for is found. -/
structure Registry.Tidy (r : Registry) : Prop where
  types : ∀ t ∈ r.types, t.Tidy
  helpers : ∀ h ∈ r.helpers, Nests [] h.source.toList []
  required : ∀ h ∈ r.helpers, ∀ name ∈ h.requires, (r.helper? name).isSome = true
  needed : ∀ t ∈ r.types, ∀ name ∈ t.helpers, (r.helper? name).isSome = true

/-! ## The bindings of a node -/

section

variable {r : Registry} {g : Graph} {id : String} {t : NodeType}

/-- What is bound to an input is the variable of a connection or a default. -/
theorem bindInputs_mem {stems : Stems} {inputs : List (String × String)} {name value : String}
    (h : bindInputs r g stems id t = .ok inputs) (hmem : (name, value) ∈ inputs) :
    (∃ c ∈ g.connections r, value = c.variable stems) ∨
      ∃ port ∈ t.inputs, ∃ literal ∈ port.default, value = literal.toGlsl := by
  obtain ⟨index, hbound⟩ := List.mem_iff_getElem?.mp hmem
  obtain ⟨port, hport, -, hexpression⟩ := expression_at h hbound
  rcases inputExpression_eq_ok_iff.mp hexpression with hsources | ⟨-, literal, hdefault, rfl⟩
  · obtain ⟨c, hc, heq⟩ := List.map_eq_singleton_iff.mp hsources
    refine .inl ⟨c, ?_, heq.symm⟩
    have hinto : c ∈ Graph.connectionsInto (g.connections r) id index := by rw [hc]; simp
    exact (Graph.mem_connectionsInto.mp hinto).1
  · exact .inr ⟨port, List.mem_of_getElem? hport, literal, hdefault, rfl⟩

theorem Registry.Tidy.plain_variable (hr : r.Tidy) {c : Connection} (hc : c ∈ g.connections r) :
    Plain (c.variable (g.stems r)).toList := by
  obtain ⟨e, -, he⟩ := Graph.mem_connections.mp hc
  obtain ⟨source, -, i, hsource, -, -, hport, -⟩ := Edge.resolve_eq_ok_iff.mp he
  obtain ⟨n, -, hsource⟩ := Graph.typeOf?_eq_some_iff.mp hsource
  have htidy := hr.types source (Registry.type?_mem hsource)
  exact plain_outputVariable (g.plain_stem r _) (htidy.outputs _ (List.mem_of_getElem? hport))

/-- What a node puts into its template may stand anywhere. -/
theorem tidy_nodeBindings (hr : r.Tidy) (ht : t.Tidy) {n : Node}
    {inputs parameters : List (String × String)}
    (hinputs : bindInputs r g (g.stems r) id t = .ok inputs)
    (hparameters : bindParameters n t = .ok parameters) :
    (nodeBindings t ((g.stems r).get id) inputs parameters).Tidy where
  inputs := by
    intro name value hvalue
    rcases bindInputs_mem hinputs (Dictionary.mem_of_get?_ofList hvalue) with
      ⟨c, hc, rfl⟩ | ⟨port, hport, literal, hliteral, rfl⟩
    · exact (hr.plain_variable hc).nests []
    · exact ((ht.inputs port hport).2 literal hliteral).nests
  outputs := by
    intro name value hvalue
    obtain ⟨port, hport, heq⟩ := List.mem_map.mp (Dictionary.mem_of_get?_ofList hvalue)
    cases heq
    exact (plain_outputVariable (g.plain_stem r id) (ht.outputs port hport)).nests []
  parameters := by
    intro name value hvalue
    obtain ⟨p, hp, hbound⟩ := exists_left_of_forall₂ (mapM_eq_ok.mp hparameters)
      (Dictionary.mem_of_get?_ofList hvalue)
    obtain ⟨literal, hliteral, hbound⟩ := bind_eq_ok.mp hbound
    cases hbound
    obtain ⟨hdefault, hoptions⟩ := ht.parameters p hp
    exact (isPlain_parameterLiteral hdefault hoptions hliteral).nests
  stem := g.plain_stem r id
  result := by
    show Plain resultVariable.toList
    decide

theorem Registry.Tidy.nests_statement (hr : r.Tidy) {f : Fragment} {statement : Statement}
    (h : g.fragment r (g.stems r) id = .ok f) (hs : f.statement = some statement) :
    Nests [] statement.text.toList [] := by
  obtain ⟨n, t, template, inputs, parameters, -, ht, htemplate, hinputs, hparameters, hrender⟩ :=
    Graph.fragment_statement h hs
  have htidy := hr.types t (Registry.type?_mem ht)
  obtain ⟨same, hsame, htidyTemplate⟩ := htidy.template
  rw [htemplate] at hsame
  cases hsame
  exact htidyTemplate.nests_render (tidy_nodeBindings hr htidy hinputs hparameters) hrender

theorem Registry.Tidy.plain_uniform (hr : r.Tidy) {f : Fragment} {u : Uniform}
    (h : g.fragment r (g.stems r) id = .ok f) (hu : u ∈ f.uniforms) : Plain u.name.toList := by
  obtain ⟨n, t, -, -, ht, -, huniforms, -⟩ := Graph.fragment_ok h
  obtain ⟨port, hport, hbound⟩ := exists_left_of_forall₂ (mapM_eq_ok.mp huniforms) hu
  obtain ⟨value, -, hbound⟩ := bind_eq_ok.mp hbound
  cases hbound
  have htidy := hr.types t (Registry.type?_mem ht)
  exact plain_outputVariable (g.plain_stem r id) (htidy.outputs port (List.mem_filter.mp hport).1)

end

end NodeShader
