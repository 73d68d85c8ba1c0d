import NodeShader.Proofs.Execution

/-!
# The identifiers of a shader

What a node brings into a shader are the names of its uniforms (`Graph.uniformNames`) and the
names that its statement declares (`Graph.declaredBy`). Both are among the names that the node
takes, so those of two nodes differ; and they begin otherwise than each other and than the
names of the text around the statements.

* `identifiers_distinct`: every node has a stem, two nodes take no name in common, and no name is
  introduced twice in a shader.
-/

namespace NodeShader

/-- The outputs of a type have distinct names, and its temporaries are not named like an output
that is a variable. -/
structure NodeType.NamesApart (t : NodeType) : Prop where
  outputs_nodup : (t.outputs.map Port.name).Nodup
  temporaries_apart : ∀ template ∈ t.parseTemplate.toOption, ∀ name ∈ template.temporaries,
    ∀ port ∈ t.outputs, port.uniform = false → port.name ≠ name

def Registry.NamesApart (r : Registry) : Prop := ∀ t ∈ r.types, t.NamesApart

theorem Registry.Regular.namesApart {r : Registry} (h : r.Regular) : r.NamesApart :=
  fun t ht => ⟨(h t ht).outputs_nodup, (h t ht).temporaries_apart⟩

/-- The names that every shader has, whatever its nodes. -/
def reservedNames : List String :=
  builtinUniforms.map Uniform.name ++ ["vUv", "fragCoord", resultVariable, "gl_FragColor"]

theorem not_reserved_of_likeStem {name : String} (h : LikeStem name) : name ∉ reservedNames := by
  obtain ⟨rest, rfl⟩ := h
  intro hin
  have hreserved : ∀ x ∈ reservedNames, x.toList.take 2 ≠ ['v', '_'] := by decide
  refine hreserved _ hin ?_
  simp

theorem not_reserved_of_uniform (stem : String) {port : Port} (hu : port.uniform = true) :
    outputVariable stem port ∉ reservedNames := by
  intro hin
  have hreserved : ∀ x ∈ reservedNames, x.toList.head? ≠ some 'u' := by decide
  exact hreserved _ hin (head?_outputVariable stem hu)

namespace Graph

variable {r : Registry} {g : Graph} {s : Schedule} {prune : Bool} {id : String}

/-! ## The names that a node brings -/

/-- The names of a node's uniforms. -/
def uniformNames (r : Registry) (g : Graph) (id : String) : List String :=
  (g.uniformPorts r id).map (outputVariable ((g.stems r).get id))

/-- The names that the statement of a node declares, if it has one. -/
def declaredBy (r : Registry) (g : Graph) (id : String) : List String :=
  match g.typeOf? r id with
  | none => []
  | some t =>
    match t.parseTemplate with
    | .error _ => []
    | .ok template =>
      if template.isBlank then [] else declaredNames t template ((g.stems r).get id)

theorem mem_uniformNames {name : String} :
    name ∈ g.uniformNames r id ↔ ∃ t port, g.typeOf? r id = some t ∧ port ∈ t.outputs ∧
      port.uniform = true ∧ outputVariable ((g.stems r).get id) port = name := by
  simp only [uniformNames, List.mem_map, mem_uniformPorts]
  constructor
  · rintro ⟨port, ⟨t, ht, hport, hu⟩, rfl⟩
    exact ⟨t, port, ht, hport, hu, rfl⟩
  · rintro ⟨t, port, ht, hport, hu, rfl⟩
    exact ⟨port, ⟨t, ht, hport, hu⟩, rfl⟩

theorem declaredBy_eq {t : NodeType} {template : Template} (ht : g.typeOf? r id = some t)
    (htemplate : t.parseTemplate = .ok template) :
    g.declaredBy r id =
      if template.isBlank then [] else declaredNames t template ((g.stems r).get id) := by
  simp only [declaredBy, ht, htemplate]

theorem declaredBy_cases (r : Registry) (g : Graph) (id : String) :
    g.declaredBy r id = [] ∨ ∃ t template, g.typeOf? r id = some t ∧
      t.parseTemplate = .ok template ∧
      g.declaredBy r id = declaredNames t template ((g.stems r).get id) := by
  cases ht : g.typeOf? r id with
  | none => exact .inl (by simp only [declaredBy, ht])
  | some t =>
    cases htemplate : t.parseTemplate with
    | error e => exact .inl (by simp only [declaredBy, ht, htemplate])
    | ok template =>
      rw [declaredBy_eq ht htemplate]
      split
      · exact .inl rfl
      · exact .inr ⟨t, template, rfl, htemplate, rfl⟩

theorem uniformNames_subset {name : String} (h : name ∈ g.uniformNames r id) :
    name ∈ g.namesOf r id := by
  obtain ⟨t, port, ht, hport, -, rfl⟩ := mem_uniformNames.mp h
  rw [namesOf, ht]
  exact outputVariable_mem_takenNames hport _

theorem declaredBy_subset {name : String} (h : name ∈ g.declaredBy r id) :
    name ∈ g.namesOf r id := by
  rcases g.declaredBy_cases r id with hnil | ⟨t, template, ht, htemplate, heq⟩
  · rw [hnil] at h
    cases h
  · rw [heq] at h
    rw [namesOf, ht]
    exact declaredNames_subset htemplate _ h

theorem likeStem_of_mem_declaredBy {name : String} (h : name ∈ g.declaredBy r id) :
    LikeStem name := by
  rcases g.declaredBy_cases r id with hnil | ⟨t, template, -, -, heq⟩
  · rw [hnil] at h
    cases h
  · rw [heq] at h
    exact likeStem_of_mem_declaredNames (g.likeStem_stems r id) h

theorem namesApart_of_typeOf? (hr : r.NamesApart) {t : NodeType} (ht : g.typeOf? r id = some t) :
    t.NamesApart := by
  obtain ⟨n, -, ht⟩ := typeOf?_eq_some_iff.mp ht
  exact hr t (Registry.type?_mem ht)

theorem nodup_uniformNames (hr : r.NamesApart) (id : String) : (g.uniformNames r id).Nodup := by
  unfold uniformNames uniformPorts
  cases ht : g.typeOf? r id with
  | none => exact List.nodup_nil
  | some t =>
    have hd := (namesApart_of_typeOf? hr ht).outputs_nodup
    refine ((List.Nodup.of_map _ hd).filter _).map_on fun p hp q hq heq => ?_
    apply List.inj_on_of_nodup_map hd (List.mem_filter.mp hp).1 (List.mem_filter.mp hq).1
    exact outputVariable_inj (g.likeStem_stems r id) heq

theorem nodup_declaredBy (hr : r.NamesApart) (id : String) : (g.declaredBy r id).Nodup := by
  rcases g.declaredBy_cases r id with hnil | ⟨t, template, ht, htemplate, heq⟩
  · rw [hnil]
    exact List.nodup_nil
  · have hapart := namesApart_of_typeOf? hr ht
    rw [heq]
    apply nodup_declaredNames hapart.outputs_nodup
    apply hapart.temporaries_apart
    rw [htemplate]
    rfl

/-! ## The names of a shader -/

/-- Names of the nodes of a schedule are distinct altogether if they are for each node. -/
theorem nodup_flatMap_order (hs : g.schedule r prune = .ok s) {names : String → List String}
    (hnodup : ∀ id, (names id).Nodup)
    (hsubset : ∀ id name, name ∈ names id → name ∈ g.namesOf r id) :
    (s.order.flatMap names).Nodup := by
  refine List.nodup_flatMap.mpr ⟨fun id _ => hnodup id, ?_⟩
  refine (nodup_order hs).imp_of_mem fun ha hb hab name hname hname' => ?_
  have hid {id : String} (h : id ∈ s.order) : id ∈ g.ids := ((mem_order hs).mp h).1
  exact taken_disjoint (hid ha) (hid hb) hab (hsubset _ name hname) (hsubset _ name hname')

theorem fragments_declares {order : List String} {fragments : List Fragment}
    (hall : List.Forall₂ (fun id f => g.fragment r (g.stems r) id = .ok f) order fragments) :
    (fragments.filterMap Fragment.statement).flatMap Statement.declares =
      order.flatMap (g.declaredBy r) := by
  induction hall with
  | nil => rfl
  | cons hf _ ih =>
    obtain ⟨n, t, template, hn, ht, htemplate, -, -, -, hstatement⟩ := fragment_ok hf
    have htype := typeOf?_eq_some_iff.mpr ⟨n, hn, ht⟩
    rw [List.flatMap_cons, ← ih, declaredBy_eq htype htemplate]
    unfold HasStatement at hstatement
    split at hstatement
    next hblank =>
      rw [List.filterMap_cons_none hstatement, if_pos hblank, List.nil_append]
    next hblank =>
      obtain ⟨text, htext⟩ := hstatement
      rw [List.filterMap_cons_some htext, List.flatMap_cons, if_neg hblank]

/-- The names of a shader's uniforms and of the variables that its statements declare. -/
theorem shader_names {entry : EntryPoint} {shader : Shader} (h : g.emit r entry s = .ok shader) :
    ∃ uniforms, shader.uniforms = builtinUniforms ++ uniforms ∧
      uniforms.map Uniform.name = s.order.flatMap (g.uniformNames r) ∧
      shader.statements.flatMap Statement.declares = s.order.flatMap (g.declaredBy r) := by
  obtain ⟨fragments, hall, huniforms, hstatements⟩ := emit_ok h
  refine ⟨_, huniforms, fragments_uniforms hall, ?_⟩
  rw [hstatements, fragments_declares hall]

/-- No node brings a reserved name. -/
theorem not_reserved_of_mem {order : List String} {name : String}
    (h : name ∈ order.flatMap (g.uniformNames r) ++ order.flatMap (g.declaredBy r)) :
    name ∉ reservedNames := by
  rcases List.mem_append.mp h with h | h
  · obtain ⟨id, -, h⟩ := List.mem_flatMap.mp h
    obtain ⟨t, port, -, -, hu, rfl⟩ := mem_uniformNames.mp h
    exact not_reserved_of_uniform _ hu
  · obtain ⟨id, -, h⟩ := List.mem_flatMap.mp h
    exact not_reserved_of_likeStem (likeStem_of_mem_declaredBy h)

/-- The nodes of a schedule bring no name twice. -/
theorem nodup_names_order (hr : r.NamesApart) (hs : g.schedule r prune = .ok s) :
    (s.order.flatMap (g.uniformNames r) ++ s.order.flatMap (g.declaredBy r)).Nodup := by
  refine List.nodup_append.mpr ⟨?_, ?_, ?_⟩
  · exact nodup_flatMap_order hs (nodup_uniformNames hr) fun _ _ => uniformNames_subset
  · exact nodup_flatMap_order hs (nodup_declaredBy hr) fun _ _ => declaredBy_subset
  · -- uniforms begin otherwise than the variables of statements
    rintro name hname _ hdeclared rfl
    obtain ⟨id, -, hname⟩ := List.mem_flatMap.mp hname
    obtain ⟨t, port, -, -, hu, rfl⟩ := mem_uniformNames.mp hname
    obtain ⟨other, -, hdeclared⟩ := List.mem_flatMap.mp hdeclared
    exact not_likeStem_outputVariable _ hu (likeStem_of_mem_declaredBy hdeclared)

end Graph

/-- The search for the stem of a node ends, and no two nodes take a name in common. So, if the
names of each type are apart, the uniforms of a shader and the variables that its statements declare
all have different names, and no node brings a reserved one. -/
theorem identifiers_distinct (r : Registry) (g : Graph) :
    (∀ id ∈ g.ids, ∃ n, g.SearchEnds r id n) ∧
    (∀ a ∈ g.ids, ∀ b ∈ g.ids, a ≠ b → List.Disjoint (g.namesOf r a) (g.namesOf r b)) ∧
    (r.NamesApart → ∀ prune entry s shader, g.schedule r prune = .ok s →
      g.emit r entry s = .ok shader →
        ∃ uniforms, shader.uniforms = builtinUniforms ++ uniforms ∧
          (shader.uniforms.map Uniform.name ++
            shader.statements.flatMap Statement.declares).Nodup ∧
          ∀ name ∈ uniforms.map Uniform.name ++ shader.statements.flatMap Statement.declares,
            name ∉ reservedNames) := by
  refine ⟨fun id hid => Graph.exists_searchEnds hid,
    fun a ha b hb hab name => Graph.taken_disjoint ha hb hab, ?_⟩
  intro hr prune entry s shader hs h
  obtain ⟨uniforms, huniforms, hnames, hdeclares⟩ := Graph.shader_names h
  refine ⟨uniforms, huniforms, ?_, ?_⟩
  · rw [huniforms, List.map_append, List.append_assoc, hnames, hdeclares]
    refine List.nodup_append.mpr ⟨by decide, Graph.nodup_names_order hr hs, ?_⟩
    -- the uniforms that every shader has are reserved
    rintro name hname _ hother rfl
    exact Graph.not_reserved_of_mem hother (List.mem_append_left _ hname)
  · intro name hname
    rw [hnames, hdeclares] at hname
    exact Graph.not_reserved_of_mem hname

/-- A tint and a color whose ids have the same letters and digits. -/
def clashingGraph : Graph :=
  { nodes := [⟨"t-1", "tint", ∅⟩, ⟨"t_1", "color_picker", ∅⟩, ⟨"m", "mix_colors", ∅⟩,
      ⟨"o", "fragment_output", ∅⟩]
    edges := [⟨"1", "t-1", none, "m", none⟩, ⟨"2", "t_1", none, "m", some "input2"⟩,
      ⟨"3", "m", some "result", "o", none⟩] }

theorem clashing_identifiers_distinct :
    palette.NamesApart ∧ (clashingGraph.stems palette).get "t-1" = "v_t_1" ∧
      (clashingGraph.stems palette).get "t_1" = "v_t_1_2" ∧
      ∃ s shader, clashingGraph.schedule palette true = .ok s ∧
        clashingGraph.emit palette .main s = .ok shader ∧
        (shader.uniforms.map Uniform.name ++
          shader.statements.flatMap Statement.declares).Nodup := by
  have hsorted : clashingGraph.sortedEdges = clashingGraph.edges :=
    Graph.sortedEdges_of_pairwise (by decide)
  have hs : clashingGraph.schedule palette true = .ok ⟨["t-1", "t_1", "m", "o"], "o", []⟩ := by
    decide +kernel
  have hemit : ∃ shader,
      clashingGraph.emit palette .main ⟨["t-1", "t_1", "m", "o"], "o", []⟩ = .ok shader := by
    apply Graph.exists_emit
    unfold Graph.fragment bindInputs incomingVariables
    rw [hsorted]
    decide +kernel
  obtain ⟨shader, hemit⟩ := hemit
  have hapart := palette_regular.namesApart
  obtain ⟨-, -, hnames⟩ := identifiers_distinct palette clashingGraph
  obtain ⟨uniforms, -, hnodup, -⟩ := hnames hapart true .main _ shader hs hemit
  exact ⟨hapart, by decide +kernel, by decide +kernel, _, shader, hs, hemit, hnodup⟩

end NodeShader
