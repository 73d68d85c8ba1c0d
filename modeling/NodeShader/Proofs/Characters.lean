import NodeShader.Proofs.Naming
import NodeShader.Proofs.Nesting

/-!
# The characters of names and numbers

Whatever an id is made of, its stem is made of letters, digits and underscores; and a number is
written with digits, a point and a sign, or in letters. So neither brings a bracket or a slash
into a shader (`Graph.plain_stem`, `plain_floatText`, `plain_toString`).
-/

namespace NodeShader

open Glsl (isBracket isBracket_eq_false Plain)

/-! ## Plain texts -/

theorem plain_of_isAlphanum {cs : List Char} (h : ∀ c ∈ cs, c.isAlphanum = true) : Plain cs := by
  intro c hc
  have hslash : c ≠ '/' := by
    intro hc'
    rw [hc'] at hc
    exact absurd (h _ hc) (by decide)
  exact ⟨isBracket_eq_false (by decide) (h c hc), hslash⟩

theorem plain_of_isDigit {cs : List Char} (h : ∀ c ∈ cs, c.isDigit = true) : Plain cs :=
  plain_of_isAlphanum fun c hc => by simp [Char.isAlphanum, h c hc]

theorem plain_cons {c : Char} {cs : List Char} :
    Plain (c :: cs) ↔ (isBracket c = false ∧ c ≠ '/') ∧ Plain cs := List.forall_mem_cons

theorem plain_intercalate {sep : List Char} {texts : List (List Char)} (hsep : Plain sep)
    (h : ∀ text ∈ texts, Plain text) : Plain (sep.intercalate texts) := by
  induction texts with
  | nil => rintro c ⟨⟩
  | cons text texts ih =>
    obtain ⟨hfirst, hrest⟩ := List.forall_mem_cons.mp h
    cases texts with
    | nil => simpa using hfirst
    | cons next texts =>
      rw [List.intercalate_cons_cons]
      exact (hfirst.append hsep).append (ih hrest)

/-! ## Names -/

theorem plain_variableStem (id : String) : Plain (variableStem id).toList := by
  have hmaximal : MaximalRuns id.toList (alphanumericRuns id.toList) := maximalRuns_iff.mpr rfl
  have hruns : ∀ run ∈ alphanumericRuns id.toList, Plain run := fun run hrun =>
    plain_of_isAlphanum (hmaximal.isRun run hrun).2
  rw [variableStem_eq hmaximal]
  split
  · decide
  · rw [String.toList_append, String.toList_intercalate, List.map_map]
    refine Glsl.Plain.append (by decide) (plain_intercalate (by decide) ?_)
    simpa using hruns

theorem plain_toString_nat (n : Nat) : Plain (toString n).toList := by
  rw [Nat.toString_eq_ofList_toDigits, String.toList_ofList]
  exact plain_of_isDigit fun c hc => Nat.isDigit_of_mem_toDigits (by decide) (by decide) hc

theorem plain_stemCandidate {base : String} (h : Plain base.toList) (n : Nat) :
    Plain (stemCandidate base n).toList := by
  rw [stemCandidate]
  split
  · exact h
  · rw [String.toList_append, String.toList_append]
    exact (h.append (by decide)).append (plain_toString_nat _)

/-- The stem of a node is plain, whatever its id. -/
theorem Graph.plain_stem (r : Registry) (g : Graph) (id : String) :
    Plain ((g.stems r).get id).toList := by
  obtain ⟨n, hn⟩ := g.exists_stemCandidate r id
  rw [hn]
  exact plain_stemCandidate (plain_variableStem id) n

theorem plain_temporaryName {stem name : String} (hs : Plain stem.toList)
    (hn : Plain name.toList) : Plain (temporaryName stem name).toList := by
  rw [temporaryName, String.toList_append, String.toList_append]
  exact (hs.append (by decide)).append hn

theorem plain_outputVariable {stem : String} {port : Port} (hs : Plain stem.toList)
    (hp : Plain port.name.toList) : Plain (outputVariable stem port).toList := by
  rw [outputVariable]
  split
  · simp only [String.toList_append]
    exact ((Glsl.Plain.append (by decide) hs).append (by decide)).append hp
  · exact plain_temporaryName hs hp

/-! ## Numbers -/

theorem plain_decimalDigits (n : Nat) : Plain (decimalDigits n) :=
  plain_of_isDigit fun _ hc => Nat.isDigit_of_mem_toDigits (by decide) (by decide) hc

theorem plain_zeros (n : Nat) : Plain (List.replicate n '0') :=
  plain_of_isDigit fun _ hc => (List.eq_of_mem_replicate hc) ▸ rfl

theorem plain_pointed {digits : List Char} (h : Plain digits) (places : Nat) :
    Plain (Decimal.pointed digits places) := by
  have hpadded := (plain_zeros (places + 1 - digits.length)).append h
  refine (hpadded.subset fun c => List.mem_of_mem_take).append (plain_cons.mpr ⟨by decide, ?_⟩)
  exact hpadded.subset fun c => List.mem_of_mem_drop

theorem Decimal.plain_toText (d : Decimal) : Plain d.toText.toList := by
  have hsigned {cs : List Char} (h : Plain cs) :
      Plain (if d.negative then '-' :: cs else cs) := by
    split
    · exact plain_cons.mpr ⟨by decide, h⟩
    · exact h
  rw [toText, String.toList_ofList]
  apply hsigned
  split
  · split
    · exact plain_decimalDigits _
    · exact (plain_decimalDigits _).append (plain_zeros _)
  · exact plain_pointed (plain_decimalDigits _) _

theorem Binary.plain_toText {f : BinaryFormat} (x : Binary f) : Plain x.toText.toList := by
  cases x with
  | finite negative rank => exact Decimal.plain_toText _
  | infinite negative =>
    rw [toText]
    split <;> decide
  | nan =>
    show Plain "NaN".toList
    decide

theorem plain_floatText (x : Single) : Plain (floatText x).toList := by
  simp only [floatText]
  split
  · exact x.plain_toText
  · rw [String.toList_append]
    exact x.plain_toText.append (by decide)

theorem plain_toString (n : Int) : Plain (toString n).toList := by
  cases n with
  | ofNat n => exact plain_toString_nat n
  | negSucc n =>
    rw [show toString (Int.negSucc n) = "-" ++ toString (n + 1) from rfl, String.toList_append]
    exact Glsl.Plain.append (by decide) (plain_toString_nat _)

end NodeShader
