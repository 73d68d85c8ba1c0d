import NodeShader.Literal
import NodeShader.Proofs.Shortest

/-!
# Numerals in shader text

A finite number is written as a numeral with a point and digits on both sides of it
(`exists_floatNumeral`), whether its shortest decimal has places after the point or not. Reading
the digits gives the value of that decimal, so nothing is lost in shader text.

* `floatText_reads_back`: a number is the only one that is nearest to what its text says.
-/

namespace NodeShader

/-! ## Digits -/

/-- Decimal digits, at least one. -/
def IsDigits (cs : List Char) : Prop := cs ≠ [] ∧ ∀ c ∈ cs, c.isDigit = true

theorem IsDigits.append {cs cs' : List Char} (h : IsDigits cs) (h' : ∀ c ∈ cs', c.isDigit = true) :
    IsDigits (cs ++ cs') :=
  ⟨List.append_ne_nil_of_left_ne_nil h.1 _, List.forall_mem_append.mpr ⟨h.2, h'⟩⟩

theorem isDigit_of_mem_zeros {n : Nat} {c : Char} (h : c ∈ List.replicate n '0') :
    c.isDigit = true := by
  rw [List.eq_of_mem_replicate h]
  rfl

theorem isDigits_decimalDigits (n : Nat) : IsDigits (decimalDigits n) :=
  ⟨List.ne_nil_of_length_pos (length_decimalDigits_pos n),
    fun _ hc => Nat.isDigit_of_mem_toDigits (by decide) (by decide) hc⟩

theorem ofDecimalDigits_decimalDigits (n : Nat) : ofDecimalDigits (decimalDigits n) = n :=
  Nat.ofDigitChars_ten_toDigits

theorem ofDecimalDigits_append_zeros (cs : List Char) (n : Nat) :
    ofDecimalDigits (cs ++ List.replicate n '0') = ofDecimalDigits cs * 10 ^ n := by
  rw [ofDecimalDigits, List.foldl_append, Nat.mul_comm]
  exact Nat.ofDigitChars_replicate_zero

theorem ofDecimalDigits_zeros_append (cs : List Char) (n : Nat) :
    ofDecimalDigits (List.replicate n '0' ++ cs) = ofDecimalDigits cs := by
  have hzeros : (List.replicate n '0').foldl (fun n c => 10 * n + (c.toNat - '0'.toNat)) 0 = 0 :=
    Nat.ofDigitChars_replicate_zero (b := 10)
  rw [ofDecimalDigits, List.foldl_append, hzeros, ofDecimalDigits]

/-! ## Numerals -/

/-- The text with a minus in front of it, if the number is negative. -/
def signed (negative : Bool) (cs : List Char) : List Char := if negative then '-' :: cs else cs

theorem signed_append (negative : Bool) (cs cs' : List Char) :
    signed negative cs ++ cs' = signed negative (cs ++ cs') := by
  cases negative <;> rfl

/-- An optional minus, digits, a point and digits. -/
def IsFloatNumeral (cs : List Char) : Prop :=
  ∃ negative whole places, IsDigits whole ∧ IsDigits places ∧
    cs = signed negative (whole ++ '.' :: places)

/-- An optional minus and digits. -/
def IsIntNumeral (cs : List Char) : Prop :=
  ∃ negative whole, IsDigits whole ∧ cs = signed negative whole

theorem point_notMem_signed {negative : Bool} {whole : List Char} (h : IsDigits whole) :
    '.' ∉ signed negative whole := by
  have hwhole : '.' ∉ whole := fun hmem => absurd (h.2 _ hmem) (by decide)
  cases negative with
  | false => exact hwhole
  | true => simpa [signed] using hwhole

namespace Decimal

variable (d : Decimal)

theorem toList_toText_of_nat {e : Nat} (h : d.exponent = e) :
    ∃ whole, IsDigits whole ∧ d.toText.toList = signed d.negative whole ∧
      ofDecimalDigits whole = d.coefficient * 10 ^ e := by
  rw [toText, h, String.toList_ofList]
  by_cases hzero : d.coefficient = 0
  · refine ⟨decimalDigits d.coefficient, isDigits_decimalDigits _, ?_, ?_⟩
    · simp only [hzero, if_true]
      rfl
    · rw [ofDecimalDigits_decimalDigits, hzero, Nat.zero_mul]
  · refine ⟨decimalDigits d.coefficient ++ List.replicate e '0',
      (isDigits_decimalDigits _).append fun _ => isDigit_of_mem_zeros, ?_, ?_⟩
    · simp only [hzero, if_false]
      rfl
    · rw [ofDecimalDigits_append_zeros, ofDecimalDigits_decimalDigits]

theorem exists_pointed (digits : List Char) (hdigits : IsDigits digits) (count : Nat)
    (hcount : 0 < count) :
    ∃ whole places, IsDigits whole ∧ IsDigits places ∧ places.length = count ∧
      pointed digits count = whole ++ '.' :: places ∧
      ofDecimalDigits (whole ++ places) = ofDecimalDigits digits := by
  generalize hpadded : List.replicate (count + 1 - digits.length) '0' ++ digits = padded
  have hall : ∀ c ∈ padded, c.isDigit = true := by
    rw [← hpadded, List.forall_mem_append]
    exact ⟨fun _ => isDigit_of_mem_zeros, hdigits.2⟩
  have hlength : count < padded.length := by
    rw [← hpadded, List.length_append, List.length_replicate]
    omega
  refine ⟨padded.take (padded.length - count), padded.drop (padded.length - count), ⟨?_, ?_⟩,
    ⟨?_, ?_⟩, ?_, ?_, ?_⟩
  · refine List.ne_nil_of_length_pos ?_
    rw [List.length_take]
    omega
  · exact fun c hc => hall c (List.mem_of_mem_take hc)
  · refine List.ne_nil_of_length_pos ?_
    rw [List.length_drop]
    omega
  · exact fun c hc => hall c (List.mem_of_mem_drop hc)
  · rw [List.length_drop]
    omega
  · simp only [pointed, hpadded]
  · rw [List.take_append_drop, ← hpadded, ofDecimalDigits_zeros_append]

theorem toList_toText_of_negSucc {e : Nat} (h : d.exponent = Int.negSucc e) :
    ∃ whole places, IsDigits whole ∧ IsDigits places ∧ places.length = e + 1 ∧
      d.toText.toList = signed d.negative (whole ++ '.' :: places) ∧
      ofDecimalDigits (whole ++ places) = d.coefficient := by
  obtain ⟨whole, places, hwhole, hplaces, hlength, hpointed, hvalue⟩ :=
    exists_pointed (decimalDigits d.coefficient) (isDigits_decimalDigits _) (e + 1) (by omega)
  rw [ofDecimalDigits_decimalDigits] at hvalue
  refine ⟨whole, places, hwhole, hplaces, hlength, ?_, hvalue⟩
  rw [toText, h, String.toList_ofList, ← hpointed]
  rfl

/-- The digits on both sides of the point tell the number. -/
theorem ofText?_numeral (negative : Bool) {whole places : List Char} (hwhole : IsDigits whole)
    (hplaces : IsDigits places) {text : String}
    (h : text.toList = signed negative (whole ++ '.' :: places)) :
    ofText? text = some ⟨negative, ofDecimalDigits (whole ++ places), -(places.length : Int)⟩ := by
  obtain ⟨hne, hdigits⟩ := hwhole
  have htake : (whole ++ '.' :: places).takeWhile Char.isDigit = whole := by
    rw [List.takeWhile_append_of_pos hdigits]
    exact List.append_nil _
  have hdrop : (whole ++ '.' :: places).dropWhile Char.isDigit = '.' :: places := by
    rw [List.dropWhile_append_of_pos hdigits]
    rfl
  cases whole with
  | nil => exact absurd rfl hne
  | cons c cs =>
    have hminus : c ≠ '-' := by
      rintro rfl
      exact absurd (hdigits _ List.mem_cons_self) (by decide)
    rw [List.cons_append] at h htake hdrop
    cases negative <;>
      simpa [ofText?, h, signed, hminus, htake, hdrop, hplaces.1] using hplaces.2

theorem magnitude_of_nat {e : Nat} (h : d.exponent = e) :
    d.magnitude = (d.coefficient * 10 ^ e : Nat) := by
  rw [magnitude, h]
  push_cast
  rfl

/-- With a point added where there is none, a decimal has digits on both sides of its point, and
they tell its value. -/
theorem exists_floatNumeral :
    ∃ whole places, IsDigits whole ∧ IsDigits places ∧
      (if d.toText.toList.contains '.' then d.toText else d.toText ++ ".0").toList =
        signed d.negative (whole ++ '.' :: places) ∧
      (⟨d.negative, ofDecimalDigits (whole ++ places), -(places.length : Int)⟩ : Decimal).magnitude =
        d.magnitude := by
  cases hexponent : d.exponent with
  | ofNat e =>
    obtain ⟨whole, hwhole, hchars, hvalue⟩ := d.toList_toText_of_nat hexponent
    have hpoint : d.toText.toList.contains '.' = false := by
      rw [hchars]
      simpa using point_notMem_signed hwhole
    refine ⟨whole, ['0'], hwhole, ⟨by simp, by simp⟩, ?_, ?_⟩
    · rw [hpoint, if_neg Bool.false_ne_true, String.toList_append, hchars]
      exact signed_append ..
    · have hzero : ofDecimalDigits (whole ++ ['0']) = ofDecimalDigits whole * 10 ^ 1 :=
        ofDecimalDigits_append_zeros whole 1
      rw [d.magnitude_of_nat hexponent, ← hvalue, magnitude, hzero]
      push_cast
      simp
  | negSucc e =>
    obtain ⟨whole, places, hwhole, hplaces, hlength, hchars, hvalue⟩ :=
      d.toList_toText_of_negSucc hexponent
    have hpoint : d.toText.toList.contains '.' = true := by
      rw [hchars]
      cases d.negative <;> simp [signed]
    refine ⟨whole, places, hwhole, hplaces, ?_, ?_⟩
    · rw [hpoint, if_pos rfl, hchars]
    · rw [magnitude, magnitude, hexponent, hvalue, hlength]
      rfl

end Decimal

theorem Binary.negative_shortest (f : BinaryFormat) (negative : Bool) (r : Nat) :
    (shortest f negative r).negative = negative := by
  rw [shortest]
  split <;> rfl

/-! ## Shader text -/

/-- A finite number is written with digits on both sides of a point, which tell the value of its
shortest decimal. -/
theorem exists_floatNumeral (negative : Bool) (rank : Fin BinaryFormat.single.finiteCount) :
    ∃ whole places, IsDigits whole ∧ IsDigits places ∧
      (floatText (.finite negative rank)).toList = signed negative (whole ++ '.' :: places) ∧
      (⟨negative, ofDecimalDigits (whole ++ places), -(places.length : Int)⟩ : Decimal).magnitude =
        (Binary.shortest .single negative rank).magnitude := by
  obtain ⟨whole, places, hwhole, hplaces, htext, hmagnitude⟩ :=
    (Binary.shortest .single negative rank).exists_floatNumeral
  rw [Binary.negative_shortest] at htext hmagnitude
  exact ⟨whole, places, hwhole, hplaces, htext, hmagnitude⟩

theorem isFloatNumeral_floatText {x : Single} (h : x.isFinite = true) :
    IsFloatNumeral (floatText x).toList := by
  cases x with
  | finite negative rank =>
    obtain ⟨whole, places, hwhole, hplaces, htext, -⟩ := exists_floatNumeral negative rank
    exact ⟨negative, whole, places, hwhole, hplaces, htext⟩
  | infinite negative => cases h
  | nan => cases h

theorem isIntNumeral_toString (n : Int) : IsIntNumeral (toString n).toList := by
  have hdigits (n : Nat) : (toString n).toList = decimalDigits n := by
    rw [Nat.toString_eq_ofList_toDigits, String.toList_ofList]
    rfl
  cases n with
  | ofNat n => exact ⟨false, decimalDigits n, isDigits_decimalDigits n, hdigits n⟩
  | negSucc n =>
    refine ⟨true, decimalDigits (n + 1), isDigits_decimalDigits _, ?_⟩
    rw [show toString (Int.negSucc n) = "-" ++ toString (n + 1) from rfl, String.toList_append,
      hdigits]
    rfl

theorem BinaryFormat.single_wide : single.Wide := ⟨by decide, by decide⟩

/-- The text of a finite number in a shader reads back. It is a decimal with the sign of the number,
and the number is the only one that is nearest to this decimal, a tie going to the even neighbour;
so it is also what the decimal is rounded to. Apart from zeros at its ends the decimal is the
shortest of those to which the number is nearest. -/
theorem floatText_reads_back (negative : Bool) (rank : Fin BinaryFormat.single.finiteCount) :
    ∃ d, Decimal.ofText? (floatText (.finite negative rank)) = some d ∧ d.negative = negative ∧
      (∀ x : Single, x.IsNearest d.negative d.magnitude ↔ x = .finite negative rank) ∧
      d.toBinary = (.finite negative rank : Single) ∧
      ∃ short, Binary.toDecimal? (.finite negative rank : Single) = some short ∧
        short.magnitude = d.magnitude ∧
        ∀ other : Decimal, Binary.IsNearest other.negative other.magnitude
            (.finite negative rank : Single) →
          (decimalDigits short.coefficient).length ≤ (decimalDigits other.coefficient).length := by
  have hf : 0 < BinaryFormat.single.fraction := by decide
  obtain ⟨whole, places, hwhole, hplaces, htext, hmagnitude⟩ := exists_floatNumeral negative rank
  generalize hd : (⟨negative, ofDecimalDigits (whole ++ places), -(places.length : Int)⟩ :
    Decimal) = d at hmagnitude
  have hnegative : d.negative = negative := by rw [← hd]
  -- the number is nearest to its shortest decimal, which has the value of the text
  have hnearest : Binary.IsNearest d.negative d.magnitude (.finite negative rank : Single) := by
    have hshortest := (Binary.shortest .single negative rank).isNearest_toBinary
      BinaryFormat.single_wide hf
    rw [Binary.toBinary_shortest BinaryFormat.single_wide, Binary.negative_shortest,
      ← hmagnitude] at hshortest
    rwa [hnegative]
  refine ⟨d, ?_, hnegative, fun x => ⟨fun hx => hx.unique hnearest, fun hx => hx ▸ hnearest⟩, ?_,
    _, rfl, hmagnitude.symm, fun other hother => Binary.shortest_least hf hother⟩
  · rw [Decimal.ofText?_numeral negative hwhole hplaces htext, hd]
  · exact (d.isNearest_toBinary BinaryFormat.single_wide hf).unique hnearest

end NodeShader
