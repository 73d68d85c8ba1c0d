import NodeShader.Proofs.Connection
import NodeShader.Proofs.Numerals

/-!
# The ports that handles mean

A positional handle is the stem of a direction, alone or with a number after it
(`Direction.Counts`, `positionalIndex?_eq_some_iff`). The number may have a plus and zeros in front
and has to fit 64 bits (`IsCount`, `wordOfDigits?_eq_some_iff`). A name comes first
(`FirstNamed`), so a port may take a positional handle away from another one.

* `resolveHandle_exact`: which port a handle means, if it means one.
-/

namespace NodeShader

/-! ## Numbers -/

/-- A text of the number `n`: an optional plus and decimal digits. The number fits 64 bits. -/
def IsCount (n : Nat) (cs : List Char) : Prop :=
  ∃ plus digits, (plus = [] ∨ plus = ['+']) ∧ IsDigits digits ∧ cs = plus ++ digits ∧
    Nat.ofDigitChars 10 digits 0 = n ∧ n ≤ 0xFFFFFFFFFFFFFFFF

theorem fitsUnsigned_64 (n : Nat) : fitsUnsigned 64 n = true ↔ n ≤ 0xFFFFFFFFFFFFFFFF := by
  have hpow : Nat.pow 2 64 = 0xFFFFFFFFFFFFFFFF + 1 := by decide
  rw [fitsUnsigned, Bool.and_eq_true, decide_eq_true_iff, decide_eq_true_iff, hpow]
  omega

theorem wordOfDigits?_eq_some_iff {cs : List Char} {n : Nat} :
    wordOfDigits? cs = some n ↔ IsCount n cs := by
  have hdigits (digits : List Char) :
      (if digits ≠ [] ∧ digits.all Char.isDigit ∧ fitsUnsigned 64 (ofDecimalDigits digits) then
        some (ofDecimalDigits digits) else none) = some n ↔
        IsDigits digits ∧ Nat.ofDigitChars 10 digits 0 = n ∧ n ≤ 0xFFFFFFFFFFFFFFFF := by
    rw [Option.ite_none_right_eq_some, Option.some.injEq, List.all_eq_true, fitsUnsigned_64]
    constructor
    · rintro ⟨⟨hne, hall, hle⟩, rfl⟩
      exact ⟨⟨hne, hall⟩, rfl, hle⟩
    · rintro ⟨⟨hne, hall⟩, rfl, hle⟩
      exact ⟨⟨hne, hall, hle⟩, rfl⟩
  simp only [wordOfDigits?]
  split
  next rest =>
    rw [hdigits]
    constructor
    · exact fun ⟨hrest, hvalue⟩ => ⟨['+'], rest, .inr rfl, hrest, rfl, hvalue⟩
    · rintro ⟨plus, digits, rfl | rfl, hd, heq, hvalue⟩
      · -- a plus is no digit
        rw [List.nil_append] at heq
        exact absurd (hd.2 '+' (heq ▸ List.mem_cons_self)) (by decide)
      · cases heq
        exact ⟨hd, hvalue⟩
  next hplus =>
    rw [hdigits]
    constructor
    · exact fun ⟨hcs, hvalue⟩ => ⟨[], cs, .inl rfl, hcs, rfl, hvalue⟩
    · rintro ⟨plus, digits, rfl | rfl, hd, heq, hvalue⟩
      · rw [List.nil_append] at heq
        exact ⟨heq ▸ hd, heq ▸ hvalue⟩
      · exact absurd heq (hplus digits)

theorem isCount_toString {n : Nat} (h : n ≤ 0xFFFFFFFFFFFFFFFF) :
    IsCount n (toString n).toList := by
  rw [Nat.toString_eq_ofList_toDigits, String.toList_ofList]
  exact ⟨[], _, .inl rfl, isDigits_decimalDigits n, rfl, Nat.ofDigitChars_ten_toDigits, h⟩

/-! ## Positions -/

/-- The handles that mean a port by its position: the stem alone is the first port, and the stem
with a number after it counts from one. -/
inductive Direction.Counts (d : Direction) : String → Nat → Prop where
  | stem : d.Counts d.stem 0
  | numbered {number : String} {i : Nat} (h : IsCount (i + 1) number.toList) :
    d.Counts (d.stem ++ number) i

theorem positionalIndex?_eq_some_iff {d : Direction} {handle : String} {i : Nat} :
    positionalIndex? d handle = some i ↔ d.Counts handle i := by
  rw [positionalIndex?]
  constructor
  · intro h
    split at h
    next => cases h
    next hstem =>
      cases h
      rw [List.isPrefixOf?_eq_some_iff_append_eq, List.append_nil, String.toList_inj] at hstem
      exact hstem ▸ .stem
    next suffix hne hsuffix =>
      have hhandle : handle = d.stem ++ String.ofList suffix := by
        rw [← String.toList_inj, String.toList_append, String.toList_ofList]
        exact (List.isPrefixOf?_eq_some_iff_append_eq.mp hsuffix).symm
      split at h
      next n hword =>
        cases h
        rw [hhandle]
        refine .numbered ?_
        rw [String.toList_ofList]
        exact wordOfDigits?_eq_some_iff.mp hword
      next => cases h
  · intro h
    cases h with
    | stem =>
      have hnil : d.stem.toList.isPrefixOf? d.stem.toList = some [] :=
        List.isPrefixOf?_eq_some_iff_append_eq.mpr (List.append_nil _)
      rw [hnil]
    | @numbered number _ h =>
      have hsuffix : d.stem.toList.isPrefixOf? (d.stem ++ number).toList = some number.toList :=
        List.isPrefixOf?_eq_some_iff_append_eq.mpr String.toList_append.symm
      have hne : number.toList ≠ [] := by
        obtain ⟨plus, digits, -, hdigits, heq, -⟩ := h
        rw [heq]
        exact List.append_ne_nil_of_right_ne_nil _ hdigits.1
      rw [hsuffix]
      split
      next heq => cases heq
      next heq => exact absurd (Option.some.inj heq) hne
      next heq =>
        cases heq
        rw [wordOfDigits?_eq_some_iff.mpr h]

/-! ## Handles -/

/-- The port at position `i` is the first of this name. -/
def FirstNamed (ports : List Port) (name : String) (i : Nat) : Prop :=
  (ports.map Port.name)[i]? = some name ∧ ∀ j < i, (ports.map Port.name)[j]? ≠ some name

theorem findIdx?_name_eq_some_iff {ports : List Port} {name : String} {i : Nat} :
    ports.findIdx? (fun p => p.name == name) = some i ↔ FirstNamed ports name i := by
  have hmap : ports.findIdx? (fun p => p.name == name) =
      (ports.map Port.name).findIdx? (· == name) := by
    rw [List.findIdx?_map]
    rfl
  rw [hmap, List.findIdx?_eq_some_iff_getElem, FirstNamed]
  constructor
  · rintro ⟨hi, hname, hbefore⟩
    refine ⟨List.getElem?_eq_some_iff.mpr ⟨hi, beq_iff_eq.mp hname⟩, fun j hj heq => ?_⟩
    obtain ⟨hlt, hj'⟩ := List.getElem?_eq_some_iff.mp heq
    exact hbefore j hj (beq_iff_eq.mpr hj')
  · rintro ⟨hname, hbefore⟩
    obtain ⟨hi, hname⟩ := List.getElem?_eq_some_iff.mp hname
    refine ⟨hi, beq_iff_eq.mpr hname, fun j hj heq => hbefore j hj ?_⟩
    exact List.getElem?_eq_some_iff.mpr ⟨hj.trans hi, beq_iff_eq.mp heq⟩

theorem findIdx?_name_eq_none_iff {ports : List Port} {name : String} :
    ports.findIdx? (fun p => p.name == name) = none ↔ ∀ p ∈ ports, p.name ≠ name := by
  simp [List.findIdx?_eq_none_iff]

theorem resolveHandle_none_eq_some_iff {ports : List Port} {d : Direction} {i : Nat} :
    resolveHandle ports d none = some i ↔ i = 0 ∧ ports ≠ [] := by
  cases ports with
  | nil => simp [resolveHandle]
  | cons port ports => simp [resolveHandle, eq_comm]

/-- A handle means the first port of its name, or, if it is no name, a port by its position. -/
theorem resolveHandle_some_eq_some_iff {ports : List Port} {d : Direction} {handle : String}
    {i : Nat} :
    resolveHandle ports d (some handle) = some i ↔
      FirstNamed ports handle i ∨
        (∀ p ∈ ports, p.name ≠ handle) ∧ i < ports.length ∧ d.Counts handle i := by
  rw [← findIdx?_name_eq_some_iff, ← findIdx?_name_eq_none_iff, ← positionalIndex?_eq_some_iff]
  simp only [resolveHandle]
  cases hname : ports.findIdx? (fun p => p.name == handle) with
  | some j => simp
  | none =>
    cases positionalIndex? d handle with
    | none => simp
    | some j =>
      simp only [Option.ite_none_right_eq_some, Option.some.injEq, reduceCtorEq, false_or, true_and]
      constructor
      · rintro ⟨hj, rfl⟩
        exact ⟨hj, rfl⟩
      · rintro ⟨hj, rfl⟩
        exact ⟨hj, rfl⟩

/-- Which port a handle means. It is one of the list, so that an edge can take it; a missing handle
means the first port; a handle means the first port of its name, and if there is none, the port
that it counts to, if there is such a port. So, as far as 64 bits count, a port is meant by the stem
and its number in decimal, unless this is a name. -/
theorem resolveHandle_exact (ports : List Port) (d : Direction) :
    (∀ handle i, resolveHandle ports d handle = some i →
      ∃ hi : i < ports.length, ∀ node, endPort node ports d handle = .ok (i, ports[i])) ∧
    (∀ i, resolveHandle ports d none = some i ↔ i = 0 ∧ ports ≠ []) ∧
    (∀ handle i, resolveHandle ports d (some handle) = some i ↔
      FirstNamed ports handle i ∨
        (∀ p ∈ ports, p.name ≠ handle) ∧ i < ports.length ∧ d.Counts handle i) ∧
    (ports.length ≤ 0xFFFFFFFFFFFFFFFF → ∀ i < ports.length,
      (∀ p ∈ ports, p.name ≠ d.stem ++ toString (i + 1)) →
        resolveHandle ports d (some (d.stem ++ toString (i + 1))) = some i) := by
  refine ⟨fun handle i h => ?_, fun i => resolveHandle_none_eq_some_iff,
    fun handle i => resolveHandle_some_eq_some_iff, fun hlength i hi hname => ?_⟩
  · have hi := resolveHandle_lt h
    exact ⟨hi, fun node => endPort_eq_ok_iff.mpr ⟨h, List.getElem?_eq_getElem hi⟩⟩
  · refine resolveHandle_some_eq_some_iff.mpr (.inr ⟨hname, hi, .numbered (isCount_toString ?_)⟩)
    omega

/-- Inputs one of which is named like the handle of another. -/
def shadowedInputs : List Port :=
  [⟨"a", .input, .float, none, false⟩, ⟨"input3", .input, .float, none, false⟩,
    ⟨"b", .input, .float, none, false⟩]

/-- The third input is not meant by its plain number, but with a plus or with zeros in front. A
number past 64 bits counts to no port. -/
theorem shadowed_resolveHandle :
    resolveHandle shadowedInputs .input (some "input3") = some 1 ∧
      resolveHandle shadowedInputs .input (some "input+003") = some 2 ∧
      resolveHandle shadowedInputs .input (some "input2") = some 1 ∧
      (∃ hi : 2 < shadowedInputs.length,
        endPort "n" shadowedInputs .input (some "input+003") = .ok (2, shadowedInputs[2])) ∧
      ¬ Direction.input.Counts "input18446744073709551617" 0 := by
  obtain ⟨hport, -, hiff, hnumber⟩ := resolveHandle_exact shadowedInputs .input
  have hthird : resolveHandle shadowedInputs .input (some "input+003") = some 2 := by
    have hdigits : IsDigits ['0', '0', '3'] := ⟨by decide, List.all_eq_true.mp (by decide)⟩
    have hcounts : Direction.input.Counts "input+003" 2 :=
      @Direction.Counts.numbered .input "+003" 2
        ⟨['+'], _, .inr rfl, hdigits, rfl, rfl, by decide⟩
    exact (hiff _ _).mpr (.inr ⟨by decide, by decide, hcounts⟩)
  obtain ⟨hi, hend⟩ := hport _ _ hthird
  refine ⟨(hiff _ _).mpr (.inl ⟨rfl, by decide⟩), hthird,
    hnumber (by decide) 1 (by decide) (by decide), ⟨hi, hend "n"⟩, fun h => ?_⟩
  have hsome := (hiff _ 0).mpr (.inr ⟨by decide, by decide, h⟩)
  exact absurd hsome (by decide +kernel)

end NodeShader
