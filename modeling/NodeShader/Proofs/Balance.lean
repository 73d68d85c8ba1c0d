import NodeShader.Proofs.Outcome
import NodeShader.Proofs.Template
import NodeShader.Proofs.Tidiness

/-!
# Shaders with nested brackets

The lines of the entry function have the brackets of the texts that they are cut from
(`nests_statementText`), so the parts of a shader together are nested like its entry function
(`Registry.Tidy.nests_emit`).

* `valid_catalog_graph_written`: a graph without errors over the catalog is written, and its text
  can only be refused by its parser or for its names.
-/

namespace NodeShader

open Glsl (Nests Plain isBracket nest Uncommented)

/-! ## The text of a shader -/

section

variable {cs : List Char} {opened closed : List Char}

/-- Dropping white space drops no bracket. -/
theorem filter_dropWhile_isBlank (cs : List Char) :
    (cs.dropWhile isBlank).filter isBracket = cs.filter isBracket := by
  induction cs with
  | nil => rfl
  | cons c cs ih =>
    rw [List.dropWhile_cons]
    split
    next hblank =>
      have hplain := Glsl.isBracket_eq_false (by decide) hblank
      rw [ih, List.filter_cons_of_neg (by simp [hplain])]
    next => rfl

theorem filter_trimRight (cs : List Char) :
    (trimRight cs).filter isBracket = cs.filter isBracket := by
  rw [trimRight, List.filter_reverse, filter_dropWhile_isBlank, List.filter_reverse,
    List.reverse_reverse]

theorem filter_trimBlank (cs : List Char) :
    (trimBlank cs).filter isBracket = cs.filter isBracket := by
  rw [trimBlank, filter_trimRight, filter_dropWhile_isBlank]

theorem isInfix_trimRight (cs : List Char) : trimRight cs <:+: cs := by
  have h := (List.dropWhile_suffix isBlank (l := cs.reverse)).isInfix
  rw [← List.reverse_infix] at h
  simpa [trimRight] using h

theorem isInfix_trimBlank (cs : List Char) : trimBlank cs <:+: cs :=
  (isInfix_trimRight _).trans (List.dropWhile_suffix isBlank).isInfix

/-- A text without comments may be made a line. -/
theorem nests_line (hu : Uncommented cs) (hn : nest opened cs = some closed) :
    Nests opened (cs ++ ['\n']) closed where
  uncommented := by
    refine List.IsChain.append hu (List.isChain_singleton _) fun a _ b hb _ => ?_
    obtain rfl : '\n' = b := by simpa using hb
    decide
  ending := by simp
  nest := by
    rw [Glsl.nest_append, hn]
    rfl

/-- Lines that are nested together are nested in the body of the entry function. -/
theorem nests_bodyLines {lines : List (List Char)} (hu : ∀ line ∈ lines, Uncommented line)
    (hn : nest opened lines.flatten = some closed) :
    Nests opened (String.join (lines.map fun line => bodyLine (String.ofList line))).toList
      closed := by
  induction lines generalizing opened with
  | nil =>
    cases hn
    exact .nil
  | cons line lines ih =>
    obtain ⟨hfirst, hrest⟩ := List.forall_mem_cons.mp hu
    rw [List.flatten_cons, Glsl.nest_append] at hn
    obtain ⟨between, hline, hn⟩ := Option.bind_eq_some_iff.mp hn
    have hindent : Nests opened "    ".toList opened := Plain.nests (by decide) opened
    have hbody : (bodyLine (String.ofList line)).toList = "    ".toList ++ (line ++ ['\n']) := by
      simp [bodyLine]
    rw [List.map_cons, String.toList_join, List.flatMap_cons, ← String.toList_join, hbody]
    exact (hindent.append (nests_line hfirst hline)).append (ih hrest hn)

theorem infix_intercalate (sep : List Char) {line : List Char} {lines : List (List Char)}
    (h : line ∈ lines) : line <:+: sep.intercalate lines := by
  induction lines with
  | nil => cases h
  | cons first lines ih =>
    cases lines with
    | nil =>
      rw [List.mem_singleton.mp h, List.intercalate_singleton]
    | cons next lines =>
      rw [List.intercalate_cons_cons]
      rcases List.mem_cons.mp h with rfl | h
      · exact (List.prefix_append _ _).isInfix.trans (List.prefix_append _ _).isInfix
      · exact (ih h).trans (List.suffix_append _ _).isInfix

/-- Splitting a text into trimmed lines drops no bracket. -/
theorem filter_trimmed_lines (cs : List Char) :
    (((cs.splitOn '\n').map trimBlank).filter fun line => !line.isEmpty).flatten.filter isBracket =
      cs.filter isBracket := by
  have hlines (lines : List (List Char)) :
      (lines.map trimBlank).flatten.filter isBracket =
        (['\n'].intercalate lines).filter isBracket := by
    induction lines with
    | nil => rfl
    | cons line lines ih =>
      rw [List.map_cons, List.flatten_cons, List.filter_append, ih, filter_trimBlank]
      cases lines with
      | nil => simp
      | cons next lines =>
        rw [List.intercalate_cons_cons, List.filter_append, List.filter_append]
        simp [show isBracket '\n' = false by decide]
  rw [List.flatten_filter_not_isEmpty, hlines, List.intercalate_splitOn]

theorem nests_statementText {s : Statement} (h : Nests [] s.text.toList []) :
    Nests [] (statementText s).toList [] := by
  rw [statementText, trimmedLines, List.map_map]
  refine nests_bodyLines (fun line hline => ?_) ?_
  · obtain ⟨hline, -⟩ := List.mem_filter.mp hline
    obtain ⟨untrimmed, huntrimmed, rfl⟩ := List.mem_map.mp hline
    have hinfix := infix_intercalate ['\n'] huntrimmed
    rw [List.intercalate_splitOn] at hinfix
    exact h.uncommented.of_isInfix ((isInfix_trimBlank _).trans hinfix)
  · rw [← Glsl.nest_filter, filter_trimmed_lines, Glsl.nest_filter]
    exact h.nest

theorem nests_helperText {h : HelperFunction} (hs : Nests [] h.source.toList []) :
    Nests [] (helperText h).toList [] := by
  have hbreak : Nests [] "\n".toList [] := by decide
  have htext : (helperText h).toList = "\n".toList ++ (trimRight h.source.toList ++ ['\n']) := by
    simp [helperText]
  rw [htext]
  refine hbreak.append (nests_line (hs.uncommented.of_isInfix (isInfix_trimRight _)) ?_)
  rw [← Glsl.nest_filter, filter_trimRight, Glsl.nest_filter]
  exact hs.nest

theorem nests_uniformLine {u : Uniform} (h : Plain u.name.toList) :
    Nests [] (uniformLine u).toList [] := by
  have htype : Plain u.type.glslName.toList := by
    cases u.type <;> decide
  have hline : (uniformLine u).toList = "uniform ".toList ++ u.type.glslName.toList ++
      " ".toList ++ u.name.toList ++ ";\n".toList := by
    simp [uniformLine, toString]
  rw [hline]
  exact ((((Plain.append (by decide) htype).append (by decide)).append h).append
    (by decide)).nests []

theorem nests_shaderText {r : Registry} {entry : EntryPoint} {uniforms : List Uniform}
    {functions : List String} {statements : List Statement}
    (hhelpers : ∀ h ∈ r.helpers, Nests [] h.source.toList [])
    (huniforms : ∀ u ∈ uniforms, Plain u.name.toList)
    (hstatements : ∀ s ∈ statements, Nests [] s.text.toList []) :
    Nests [] (shaderText r entry uniforms functions statements).toList [] := by
  have hpreamble : Nests [] (preamble entry).toList [] := by cases entry <;> decide
  have hvaryings : Nests [] (varyings entry).toList [] := by cases entry <;> decide
  have hbreak : Nests [] "\n".toList [] := by decide
  have hhead : Nests [] (entryHead entry).toList ['\x7b'] := by
    cases entry <;> decide +kernel
  have htail : Nests ['\x7b'] (entryTail entry).toList [] := by
    cases entry <;> decide +kernel
  have hlines : Nests [] (String.join (uniforms.map uniformLine)).toList [] :=
    .join (List.forall_mem_map.mpr fun u hu => nests_uniformLine (huniforms u hu))
  have hfunctions : Nests [] (String.join ((functions.filterMap r.helper?).map helperText)).toList
      [] := by
    refine .join (List.forall_mem_map.mpr fun h hh => nests_helperText (hhelpers h ?_))
    obtain ⟨name, -, hname⟩ := List.mem_filterMap.mp hh
    exact List.mem_of_find?_eq_some hname
  have hbody : Nests [] (String.join (statements.map statementText)).toList [] :=
    .join (List.forall_mem_map.mpr fun s hs => nests_statementText (hstatements s hs))
  simp only [shaderText, String.toList_append]
  exact ((((((hpreamble.append hlines).append hvaryings).append hfunctions).append hbreak).append
    hhead).append (hbody.anywhere ['\x7b'])).append htail

end

/-! ## Writing a graph -/

namespace Registry.Tidy

variable {r : Registry} {g : Graph} {s : Schedule} {entry : EntryPoint}

/-- The text that is written for a schedule is nested. -/
theorem nests_emit (hr : r.Tidy) {shader : Shader} (h : g.emit r entry s = .ok shader) :
    Nests [] shader.code.toList [] := by
  obtain ⟨fragments, functions, hall, -, rfl⟩ := Graph.emit_eq_ok_iff.mp h
  refine nests_shaderText hr.helpers (List.forall_mem_append.mpr ⟨by decide, ?_⟩) ?_
  · intro u hu
    obtain ⟨f, hf, hu⟩ := List.mem_flatMap.mp hu
    obtain ⟨id, -, hfragment⟩ := exists_left_of_forall₂ hall hf
    exact hr.plain_uniform hfragment hu
  · intro statement hstatement
    obtain ⟨f, hf, hstatement⟩ := List.mem_filterMap.mp hstatement
    obtain ⟨id, -, hfragment⟩ := exists_left_of_forall₂ hall hf
    exact hr.nests_statement hfragment hstatement

/-- Nothing that is written is at fault by its registry. -/
theorem not_isInternal (hr : r.Tidy) {err : EmissionError} (h : g.emit r entry s = .error err) :
    err.isInternal = false := by
  by_contra hi
  rw [Bool.not_eq_false] at hi
  rcases bind_eq_error.mp h with h | ⟨fragments, hfragments, h⟩
  · obtain ⟨-, id, -, -, -, h⟩ := mapM_eq_error.mp h
    obtain ⟨n, t, cause, -, ht, hcause, -⟩ := Graph.fragment_template_error h hi
    obtain ⟨template, htemplate, -⟩ := (hr.types t (Registry.type?_mem ht)).template
    rw [hcause] at htemplate
    cases htemplate
  · have hneeded : ∀ name ∈ (neededHelpers fragments).map Prod.fst,
        (r.helper? name).isSome = true := by
      intro name hname
      obtain ⟨f, hf, hname⟩ := mem_neededHelpers.mp hname
      obtain ⟨id, -, hfragment⟩ := exists_left_of_forall₂ (mapM_eq_ok.mp hfragments) hf
      obtain ⟨t, ht, -, heq⟩ := Graph.fragment_type hfragment
      obtain ⟨n, -, ht⟩ := Graph.typeOf?_eq_some_iff.mp ht
      exact hr.needed t (Registry.type?_mem ht) name (heq ▸ hname)
    obtain ⟨functions, hfunctions⟩ := exists_helpersFor hr.required hneeded
    rw [hfunctions] at h
    cases h

/-- A graph without errors is planned and written. -/
theorem exists_emit (hr : r.Tidy) (hvalid : errorsOf (g.validate r) = []) (prune : Bool)
    (entry : EntryPoint) :
    ∃ s shader, g.schedule r prune = .ok s ∧ g.emit r entry s = .ok shader := by
  have hnone : ∀ d ∈ g.validate r, ¬ d.isError = true := List.filter_eq_nil_iff.mp hvalid
  obtain ⟨s, hs⟩ := Graph.exists_schedule hvalid prune
  cases hemit : g.emit r entry s with
  | ok shader => exact ⟨s, shader, hs, hemit⟩
  | error err =>
    have hnames : ∀ t ∈ r.types, (t.parameters.map Parameter.name).Nodup :=
      fun t ht => (hr.types t ht).parameters_nodup
    have hinputs : ∀ t ∈ r.types, ∀ port ∈ t.inputs, port.direction = .input :=
      fun t ht port hport => ((hr.types t ht).inputs port hport).1
    rcases Graph.emit_error_reported hnames hinputs hs hemit (hr.not_isInternal hemit) with
      ⟨d, hd, hmatch⟩ | ⟨-, node, source, -, hidden⟩
    · exact absurd hmatch.1 (hnone d hd)
    · obtain ⟨⟨d, hd, hkind, -⟩, -⟩ := hidden.reported
      exact absurd (by simp [Diagnostic.isError, Diagnostic.severity, hkind,
        DiagnosticKind.severity]) (hnone d hd)

end Registry.Tidy

theorem blankText_shaderText (r : Registry) (entry : EntryPoint) (uniforms : List Uniform)
    (functions : List String) (statements : List Statement) :
    blankText (shaderText r entry uniforms functions statements) = false := by
  have htail : blankText (entryTail entry) = false := by cases entry <;> decide +kernel
  rw [blankText] at htail ⊢
  rw [shaderText, String.toList_append, List.all_append, htail, Bool.and_false]

theorem Graph.blankText_emit {r : Registry} {g : Graph} {entry : EntryPoint} {s : Schedule}
    {shader : Shader} (h : g.emit r entry s = .ok shader) : blankText shader.code = false := by
  obtain ⟨fragments, functions, -, -, rfl⟩ := emit_eq_ok_iff.mp h
  exact blankText_shaderText _ _ _ _ _

/-- A graph that is valid and written is compiled if the check of its text finds no error. -/
theorem Compiler.succeeded_iff {c : Compiler} {g : Graph} {shader : Shader}
    {check : String → Glsl.SourceReport} (hvalid : errorsOf (g.validate c.registry) = [])
    (h : c.generate g = .ok shader) :
    (c.compileAndValidate g check).succeeded = true ↔
      errorsOf (check shader.code).diagnostics = [] := by
  have hsummary (suggestions : List String) :
      Summary.isValid ⟨g.validate c.registry ++ (check shader.code).diagnostics, suggestions⟩ =
        (errorsOf (check shader.code).diagnostics).isEmpty := by
    show (List.map Diagnostic.text (errorsOf _)).isEmpty = _
    rw [Graph.errorsOf_append, hvalid, List.nil_append, List.isEmpty_map]
  unfold compileAndValidate compileChecked
  simp only [hvalid, List.isEmpty_nil, if_true, h, Compilation.succeeded, hsummary]
  by_cases hnone : errorsOf (check shader.code).diagnostics = []
  · simp [hnone, Artifact.ofShader]
  · simp [hnone]

/-- A nested text that is not blank is in order exactly if it parses and there is no error in its
tree. -/
theorem Glsl.errorsOf_checkSource_eq_nil_iff {parse : Parser} {source : String}
    (hblank : blankText source = false) (hbrackets : bracketFault? source = none) :
    errorsOf (checkSource parse source).diagnostics = [] ↔
      ∃ p, parse source = .ok p ∧ errorsOf p.report.diagnostics = [] := by
  cases hparse : parse source with
  | error info => simp [checkSource, hblank, hbrackets, hparse, errorsOf, errorDiagnostic,
      Diagnostic.isError, Diagnostic.severity, DiagnosticKind.severity]
  | ok p => simp [checkSource, hblank, hbrackets, hparse]

/-! ## The catalog -/

/-- The template is written from segments that are tidy and declared. -/
def NodeType.WrittenFrom (t : NodeType) (segments : List Segment) : Prop :=
  t.template = Template.write segments ∧ Template.Normal segments ∧
    (∀ s ∈ segments, t.declares s = true) ∧ Template.Tidy ⟨segments⟩

theorem NodeType.WrittenFrom.exists_template {t : NodeType} {segments : List Segment}
    (h : t.WrittenFrom segments) : ∃ template, t.parseTemplate = .ok template ∧ template.Tidy := by
  obtain ⟨htemplate, hnormal, hdeclared, htidy⟩ := h
  refine ⟨⟨segments⟩, ?_, htidy⟩
  have hnone : segments.find? (fun s => !t.declares s) = none :=
    List.find?_eq_none.mpr fun s hs => by simp [hdeclared s hs]
  rw [parseTemplate, htemplate, Template.parse_write hnormal]
  simp only [bind, Except.bind, hnone]
  rfl

theorem catalog_writtenFrom : ∀ t ∈ Catalog.types, ∃ segments, t.WrittenFrom segments := by
  simp only [Catalog.types, Catalog.sources, Catalog.operations, Catalog.fields,
    Catalog.conversions, Catalog.vectors, Catalog.colors, List.forall_mem_append,
    List.forall_mem_cons, List.not_mem_nil, false_imp_iff, implies_true, and_true]
  and_intros
  all_goals exact ⟨_, rfl, by decide +kernel⟩

open Catalog.Functions in
theorem catalog_helpers_nest : ∀ h ∈ Catalog.Functions.all, Nests [] h.source.toList [] := by
  simp only [all, hash12, hash22, perlin, simplex, fbmNoise, voronoi, rgbToHsv, hsvToRgb, lines,
    String.toList_intercalate, List.map_cons, List.map_nil, List.forall_mem_cons,
    List.not_mem_nil, false_imp_iff, implies_true, and_true, -String.reduceToList]
  and_intros
  -- the characters of a literal are read off it, which is faster than to decode its bytes
  all_goals
    repeat rw [String.toList_ofList]
    decide +kernel

/-- All texts of the catalog are in order. -/
theorem catalog_tidy : Registry.catalog.Tidy := by
  have hinputs : ∀ t ∈ Catalog.types, ∀ port ∈ t.inputs,
      port.direction = .input ∧ ∀ literal ∈ port.default, literal.IsPlain := by decide +kernel
  have houtputs : ∀ t ∈ Catalog.types, ∀ port ∈ t.outputs, Plain port.name.toList := by
    decide +kernel
  have hparameters : ∀ t ∈ Catalog.types, ∀ p ∈ t.parameters,
      p.default.IsPlain ∧ ∀ option ∈ p.options, Plain option.toList := by decide +kernel
  have hnames : ∀ t ∈ Catalog.types, (t.parameters.map Parameter.name).Nodup := by
    decide +kernel
  refine ⟨fun t ht => ?_, catalog_helpers_nest, by decide +kernel, by decide +kernel⟩
  obtain ⟨segments, hsegments⟩ := catalog_writtenFrom t ht
  exact ⟨hsegments.exists_template, hinputs t ht, houtputs t ht, hparameters t ht, hnames t ht⟩

/-- A graph without errors over the catalog is planned and written under all options. Its text is
not blank and its brackets are nested. So whatever parser is used, the graph is compiled exactly if
the parser accepts its text and there is no error in the syntax tree. -/
theorem valid_catalog_graph_written (options : Options) {g : Graph}
    (hvalid : errorsOf (g.validate .catalog) = []) :
    ∃ schedule shader, g.schedule .catalog options.optimize = .ok schedule ∧
      g.emit .catalog options.entryPoint schedule = .ok shader ∧
      blankText shader.code = false ∧ Glsl.bracketFault? shader.code = none ∧
      ∀ parse : Glsl.Parser,
        (Compiler.compileAndValidate ⟨.catalog, options⟩ g (Glsl.checkSource parse)).succeeded =
            true ↔
          ∃ p, parse shader.code = .ok p ∧ errorsOf p.report.diagnostics = [] := by
  obtain ⟨schedule, shader, hschedule, hemit⟩ :=
    catalog_tidy.exists_emit hvalid options.optimize options.entryPoint
  have hblank := Graph.blankText_emit hemit
  have hbrackets := (catalog_tidy.nests_emit hemit).bracketFault?_eq_none
  refine ⟨schedule, shader, hschedule, hemit, hblank, hbrackets, fun parse => ?_⟩
  have hgenerate : Compiler.generate ⟨.catalog, options⟩ g = .ok shader := by
    simp only [Compiler.generate, hschedule, hemit]
  rw [← Glsl.errorsOf_checkSource_eq_nil_iff hblank hbrackets]
  exact @Compiler.succeeded_iff ⟨.catalog, options⟩ g shader (Glsl.checkSource parse) hvalid
    hgenerate

/-- A graph whose ids are made of brackets and of what begins comments. -/
def bracketGraph : Graph :=
  { nodes := [⟨"//", "time_input", ∅⟩, ⟨"/*(\x7b", "float_to_vec3", ∅⟩,
      ⟨")]", "fragment_output", ∅⟩]
    edges := [⟨"1", "/*(\x7b", none, ")]", none⟩, ⟨"2", "//", none, "/*(\x7b", none⟩] }

theorem bracketGraph_written :
    errorsOf (bracketGraph.validate .catalog) = [] ∧
      ∃ schedule shader, bracketGraph.schedule .catalog true = .ok schedule ∧
        bracketGraph.emit .catalog .main schedule = .ok shader ∧
        Glsl.bracketFault? shader.code = none := by
  have hsorted : bracketGraph.sortedEdges = bracketGraph.edges :=
    Graph.sortedEdges_of_pairwise (by decide)
  have hvalid : errorsOf (bracketGraph.validate .catalog) = [] := by
    simp only [Graph.validate, Graph.unresolvedEdges, Graph.unconnectedInputs,
      Graph.crowdedInputs, Graph.typeMismatches, Graph.connectedInputs, Graph.connections, hsorted]
    decide +kernel
  obtain ⟨schedule, shader, hschedule, hemit, -, hbrackets, -⟩ :=
    valid_catalog_graph_written {} hvalid
  exact ⟨hvalid, schedule, shader, hschedule, hemit, hbrackets⟩

end NodeShader
