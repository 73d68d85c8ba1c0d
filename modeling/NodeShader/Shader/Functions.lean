import NodeShader.Registry
import NodeShader.Shader.Basic

/-!
# Helper functions of a shader

`closeHelpers` adds to a set of helper functions all that they require.
-/

namespace NodeShader

namespace Registry

/-- The helpers that are not included yet. -/
def missingHelpers (r : Registry) (included : List String) : List HelperFunction :=
  r.helpers.filter (fun h => !included.contains h.name)

theorem length_missingHelpers_lt {r : Registry} {included : List String} {name : String}
    {h : HelperFunction} (found : r.helper? name = some h) (new : included.contains name = false) :
    (r.missingHelpers (name :: included)).length < (r.missingHelpers included).length := by
  have same : h.name = name := by simpa using List.find?_some found
  have member : h ∈ r.missingHelpers included := by
    simp only [missingHelpers, List.mem_filter]
    exact ⟨List.mem_of_find?_eq_some found, by simpa [same] using new⟩
  have smaller : r.missingHelpers (name :: included) =
      (r.missingHelpers included).filter (fun h => h.name != name) := by
    simp only [missingHelpers, List.filter_filter]
    congr 1
    funext h
    by_cases other : h.name = name <;> simp [other]
  rw [smaller]
  exact List.length_filter_lt_length_iff_exists.mpr ⟨h, member, by simp [same]⟩

/-- Takes the pending helpers in turn, each with the name of what requires it, and puts what
they require before the rest. The result holds the included names. -/
def closeHelpers (r : Registry) (included : List String) :
    List (String × String) → Except EmissionError (List String)
  | [] => .ok included
  | (name, owner) :: pending =>
    match known : included.contains name with
    | true => closeHelpers r included pending
    | false =>
      match found : r.helper? name with
      | none => .error (.unknownHelper owner name)
      | some helper =>
        have := length_missingHelpers_lt found known
        let required := helper.requires.map fun required => (required, name)
        closeHelpers r (name :: included) (required.reverse ++ pending)
termination_by pending => ((r.missingHelpers included).length, pending.length)
decreasing_by
  · exact Prod.Lex.right _ (by simp)
  · exact Prod.Lex.left _ _ this

/-- The names of all helpers that the needed ones call for, in the order of registration. The
needed ones are given with the types that need them, and the last is taken first. -/
def helpersFor (r : Registry) (needed : List (String × String)) :
    Except EmissionError (List String) := do
  let included ← r.closeHelpers [] needed.reverse
  return (r.helpers.filter (fun h => included.contains h.name)).map HelperFunction.name

end Registry

end NodeShader
