import NodeShader.Proofs.Agreement

/-!
# The outcome of a compilation

A compilation can fail in four places: at the validation, at the plan, at the writing and at the
check of the text. Each of them reports at least one error (`Compiler.generate_error`), and the
errors that it reports are all that the summary has, since none was found before
(`Compiler.compileAndValidate_cases`).

* `compilation_complete_or_refused`: a compilation yields a shader and no error, or errors and no
  part of a shader.
-/

namespace NodeShader

namespace Compilation

/-- A shader came out, and there is no error. -/
structure Complete (c : Compilation) : Prop where
  errors : c.summary.errors = []
  valid : c.summary.isValid = true
  error : c.artifact.error = none
  code : c.artifact.code ≠ ""

/-- There are errors, and nothing came out but their text. -/
structure Refused (c : Compilation) : Prop where
  errors : c.summary.errors ≠ []
  invalid : c.summary.isValid = false
  error : c.artifact.error = some ("; ".intercalate c.summary.errors)
  code : c.artifact.code = ""
  uniforms : c.artifact.uniforms = []
  functions : c.artifact.functions = []

end Compilation

/-! ## Writing a graph -/

theorem EmissionError.isError_diagnostic (e : EmissionError) : e.diagnostic.isError = true := by
  cases e <;> rfl

theorem shaderText_ne_empty (r : Registry) (entry : EntryPoint) (uniforms : List Uniform)
    (functions : List String) (statements : List Statement) :
    shaderText r entry uniforms functions statements ≠ "" := by
  have htail : entryTail entry ≠ "" := by cases entry <;> decide
  intro h
  rw [shaderText, String.append_eq_empty_iff] at h
  exact htail h.2

namespace Compiler

variable {c : Compiler} {g : Graph}

/-- A graph that is not written has an error, and nothing else is reported. -/
theorem generate_error {errors : List Diagnostic} (h : c.generate g = .error errors) :
    errors ≠ [] ∧ errorsOf errors = errors := by
  unfold generate at h
  split at h
  next e hs =>
    cases h
    obtain ⟨hne, hreported⟩ := Graph.schedule_error_reported hs
    exact ⟨hne, List.filter_eq_self.mpr fun d hd => (hreported d hd).1⟩
  next s hs =>
    split at h
    next e he =>
      cases h
      refine ⟨List.cons_ne_nil _ _, List.filter_eq_self.mpr fun d hd => ?_⟩
      rw [List.mem_singleton.mp hd]
      exact e.isError_diagnostic
    next shader he => cases h

theorem generate_code {shader : Shader} (h : c.generate g = .ok shader) : shader.code ≠ "" := by
  unfold generate at h
  split at h
  next e hs => cases h
  next s hs =>
    split at h
    next e he => cases h
    next written he =>
      cases h
      obtain ⟨fragments, -, he⟩ := bind_eq_ok.mp he
      obtain ⟨functions, -, he⟩ := bind_eq_ok.mp he
      cases he
      exact shaderText_ne_empty _ _ _ _ _

/-- A compilation ends with a shader and diagnostics without an error, or with the errors among its
diagnostics, of which there is one. -/
theorem compileAndValidate_cases (c : Compiler) (g : Graph) (check : String → Glsl.SourceReport) :
    (∃ shader summary, c.generate g = .ok shader ∧ errorsOf summary.diagnostics = [] ∧
      c.compileAndValidate g check =
        ⟨{ Artifact.ofShader shader with warnings := summary.warnings }, summary⟩) ∨
    ∃ summary, errorsOf summary.diagnostics ≠ [] ∧
      c.compileAndValidate g check =
        ⟨{ Artifact.failed (errorsOf summary.diagnostics) with warnings := summary.warnings },
          summary⟩ := by
  unfold compileAndValidate
  by_cases hfound : errorsOf (g.validate c.registry) = []
  · simp only [hfound, List.isEmpty_nil, if_true, compileChecked]
    cases hgenerate : c.generate g with
    | error errors =>
      obtain ⟨hne, hall⟩ := generate_error hgenerate
      have herrors : errorsOf (g.validate c.registry ++ errors) = errors := by
        rw [Graph.errorsOf_append, hfound, hall, List.nil_append]
      refine .inr ⟨⟨g.validate c.registry ++ errors, []⟩, ?_, ?_⟩
      · rw [herrors]
        exact hne
      · rw [herrors]
    | ok shader =>
      have herrors : errorsOf (g.validate c.registry ++ (check shader.code).diagnostics) =
          errorsOf (check shader.code).diagnostics := by
        rw [Graph.errorsOf_append, hfound, List.nil_append]
      by_cases hreport : errorsOf (check shader.code).diagnostics = []
      · refine .inl ⟨shader, ⟨g.validate c.registry ++ (check shader.code).diagnostics,
          (check shader.code).suggestions⟩, rfl, herrors.trans hreport, ?_⟩
        simp only [hreport, List.isEmpty_nil, if_true]
      · refine .inr ⟨⟨g.validate c.registry ++ (check shader.code).diagnostics,
          (check shader.code).suggestions⟩, ?_, ?_⟩
        · rw [herrors]
          exact hreport
        · simp only [herrors, List.isEmpty_iff, hreport, if_false]
  · refine .inr ⟨⟨g.validate c.registry, []⟩, hfound, ?_⟩
    simp only [List.isEmpty_iff, hfound, if_false]

end Compiler

/-! ## The two ends -/

namespace Compilation

variable {summary : Summary} {warnings : List String}

theorem complete_ofShader {shader : Shader} (hcode : shader.code ≠ "")
    (h : errorsOf summary.diagnostics = []) :
    Complete ⟨{ Artifact.ofShader shader with warnings := warnings }, summary⟩ := by
  have herrors : summary.errors = [] := congrArg (List.map Diagnostic.text) h
  exact ⟨herrors, List.isEmpty_iff.mpr herrors, rfl, hcode⟩

theorem refused_failed (h : errorsOf summary.diagnostics ≠ []) :
    Refused ⟨{ Artifact.failed (errorsOf summary.diagnostics) with warnings := warnings },
      summary⟩ := by
  have herrors : summary.errors ≠ [] := fun hnil => h (List.map_eq_nil_iff.mp hnil)
  exact ⟨herrors, List.isEmpty_eq_false_iff.mpr herrors, rfl, rfl, rfl, rfl⟩

theorem complete_or_refused (c : Compiler) (g : Graph) (check : String → Glsl.SourceReport) :
    (c.compileAndValidate g check).Complete ∨ (c.compileAndValidate g check).Refused := by
  rcases c.compileAndValidate_cases g check with
    ⟨shader, summary, hshader, hnone, heq⟩ | ⟨summary, hsome, heq⟩
  · rw [heq]
    exact .inl (complete_ofShader (Compiler.generate_code hshader) hnone)
  · rw [heq]
    exact .inr (refused_failed hsome)

theorem warnings_eq (c : Compiler) (g : Graph) (check : String → Glsl.SourceReport) :
    (c.compileAndValidate g check).artifact.warnings =
      (c.compileAndValidate g check).summary.warnings := by
  rcases c.compileAndValidate_cases g check with
    ⟨shader, summary, -, -, heq⟩ | ⟨summary, -, heq⟩ <;> rw [heq]

end Compilation

/-- Whatever the check of the text reports, a compilation is either complete or refused and not
both, its artifact repeats the warnings of its summary, and a request succeeds exactly if its
summary is valid. -/
theorem compilation_complete_or_refused (c : Compiler) (check : String → Glsl.SourceReport) :
    (∀ g, Xor (c.compileAndValidate g check).Complete (c.compileAndValidate g check).Refused ∧
      (c.compileAndValidate g check).artifact.warnings =
        (c.compileAndValidate g check).summary.warnings) ∧
    ∀ request, (c.respond request check).succeeded = (c.respond request check).summary.isValid := by
  refine ⟨fun g => ⟨?_, Compilation.warnings_eq c g check⟩, fun request => ?_⟩
  · rcases Compilation.complete_or_refused c g check with h | h
    · exact .inl ⟨h, fun hrefused => hrefused.errors h.errors⟩
    · exact .inr ⟨h, fun hcomplete => h.errors hcomplete.errors⟩
  · rcases Compilation.complete_or_refused _ request.graph check with h | h
    · rw [Compilation.succeeded, Compiler.respond, h.valid, h.error]
      rfl
    · rw [Compilation.succeeded, Compiler.respond, h.invalid]
      rfl

end NodeShader
