import Mathlib.Data.Nat.Basic
import NodeShader.Number.Shortest

/-!
# Rounding to binary numbers

The magnitude that a fraction is rounded to depends on its value alone (`Binary.nearestRank_mul`),
and a magnitude is rounded to itself (`Binary.nearestRank_units`). Where digits are dropped from
the exact decimal of a number, each shorter decimal was tried first, so it reads back
(`Binary.cut_spec`).

* `Binary.toBinary_shortest`: the shortest decimal of a number is rounded to that number.
-/

namespace NodeShader

/-! ## Rounding of fractions -/

theorem natPow_pos {base : Nat} (h : 0 < base) (n : Nat) : 0 < Nat.pow base n := Nat.pow_pos h

theorem roundHalfEven_mul (num den : Nat) {k : Nat} (hk : 0 < k) :
    roundHalfEven (num * k) (den * k) = roundHalfEven num den := by
  have hquotient : num * k / (den * k) = num / den := Nat.mul_div_mul_right num den hk
  have htwice : 2 * (num * k % (den * k)) = 2 * (num % den) * k := by
    rw [Nat.mul_mod_mul_right, Nat.mul_assoc]
  simp only [roundHalfEven, hquotient, htwice, Nat.mul_lt_mul_right hk]

theorem roundHalfEven_mul_self (n : Nat) {den : Nat} (h : 0 < den) :
    roundHalfEven (n * den) den = n := by
  simp only [roundHalfEven, Nat.mul_div_cancel n h, Nat.mul_mod_left, Nat.mul_zero, if_pos h]

namespace BinaryFormat

variable (f : BinaryFormat)

theorem binade_pos : 0 < f.binade := natPow_pos (by decide) _

/-- The last place of magnitude `r` is at most that of the largest. -/
theorem shift_lt {r : Nat} (h : r < f.finiteCount) (hb : 0 < f.binades) :
    f.shift r < f.binades := by
  have hquotient : r / f.binade < f.binades + 1 :=
    Nat.div_lt_of_lt_mul (by rwa [Nat.mul_comm])
  rw [shift]
  omega

theorem significand_lt (r : Nat) : f.significand r < 2 * f.binade := by
  have := Nat.mod_lt r f.binade_pos
  rw [significand]
  split <;> omega

theorem shift_of_lt {r : Nat} (h : r < f.binade) : f.shift r = 0 := by
  rw [shift, Nat.div_eq_of_lt h]

/-- The binades below magnitude `r`, and its place in its own. -/
theorem significand_add_shift (r : Nat) : f.significand r + f.shift r * f.binade = r := by
  by_cases h : r < f.binade
  · rw [f.shift_of_lt h, significand, if_pos h, Nat.zero_mul, Nat.add_zero]
  · have hquotient : 0 < r / f.binade := Nat.div_pos (Nat.le_of_not_lt h) f.binade_pos
    have hparts := Nat.div_add_mod' r f.binade
    have hfirst : r / f.binade * f.binade = (r / f.binade - 1) * f.binade + f.binade := by
      rw [← Nat.succ_mul, Nat.succ_eq_add_one, Nat.sub_add_cancel hquotient]
    rw [significand, if_neg h, shift]
    omega

theorem units_pos {r : Nat} (h : 0 < r) : 0 < f.units r := by
  refine Nat.mul_pos ?_ (natPow_pos (by decide) _)
  rw [significand]
  have := f.binade_pos
  split <;> omega

/-- The leading place of a magnitude tells the last one. -/
theorem log2_units (r : Nat) : (f.units r).log2 - f.fraction = f.shift r := by
  by_cases h : r < f.binade
  · have hunits : f.units r = r := by
      rw [units, f.shift_of_lt h, significand, if_pos h]
      exact Nat.mul_one r
    rw [f.shift_of_lt h, hunits]
    by_cases hzero : r = 0
    · subst hzero
      simp
    · have hlog : r.log2 < f.fraction := (Nat.log2_lt hzero).mpr h
      omega
  · have hlow : f.binade ≤ f.significand r := by
      rw [significand, if_neg h]
      exact Nat.le_add_right _ _
    have hhigh := f.significand_lt r
    have hlog : (f.units r).log2 = f.fraction + f.shift r := by
      have hpos : 0 < r := Nat.lt_of_lt_of_le f.binade_pos (Nat.le_of_not_lt h)
      rw [Nat.log2_eq_iff (Nat.pos_iff_ne_zero.mp (f.units_pos hpos))]
      constructor
      · rw [Nat.pow_add]
        exact Nat.mul_le_mul_right _ hlow
      · rw [Nat.add_right_comm, Nat.pow_add, Nat.pow_succ, Nat.mul_comm _ 2]
        exact Nat.mul_lt_mul_of_pos_right hhigh (natPow_pos (by decide) _)
    omega

/-- All magnitudes lie below a power of two. -/
theorem units_lt {r : Nat} (h : r < f.finiteCount) (hb : 0 < f.binades) :
    f.units r < Nat.pow 2 f.fraction * Nat.pow 2 f.binades := by
  have hshift : f.shift r + 1 ≤ f.binades := f.shift_lt h hb
  calc f.units r < 2 * f.binade * Nat.pow 2 (f.shift r) :=
        Nat.mul_lt_mul_of_pos_right (f.significand_lt r) (natPow_pos (by decide) _)
    _ = f.binade * Nat.pow 2 (f.shift r + 1) := by
        rw [show Nat.pow 2 (f.shift r + 1) = Nat.pow 2 (f.shift r) * 2 from rfl]
        ac_rfl
    _ ≤ f.binade * Nat.pow 2 f.binades :=
        Nat.mul_le_mul_left _ (Nat.pow_le_pow_right (by decide) hshift)

end BinaryFormat

namespace Binary

variable {f : BinaryFormat}

/-- Rounding depends on the value of a fraction alone. -/
theorem nearestRank_mul (num den : Nat) {k : Nat} (hk : 0 < k) :
    nearestRank f (num * k) (den * k) = nearestRank f num den := by
  have hscaled : num * k * Nat.pow 2 f.scale = num * Nat.pow 2 f.scale * k := Nat.mul_right_comm ..
  have hunit (n : Nat) : den * k * n = den * n * k := Nat.mul_right_comm ..
  simp only [nearestRank, hscaled, hunit, Nat.mul_div_mul_right _ _ hk, roundHalfEven_mul _ _ hk]

/-- A magnitude is rounded to itself. -/
theorem nearestRank_units (r : Nat) : nearestRank f (f.units r) (Nat.pow 2 f.scale) = r := by
  have hpos : 0 < Nat.pow 2 f.scale := natPow_pos (by decide) _
  have hden : 0 < Nat.pow 2 f.scale * Nat.pow 2 (f.shift r) :=
    Nat.mul_pos hpos (natPow_pos (by decide) _)
  have hunits : f.units r * Nat.pow 2 f.scale =
      f.significand r * (Nat.pow 2 f.scale * Nat.pow 2 (f.shift r)) := by
    rw [BinaryFormat.units, Nat.mul_assoc, Nat.mul_comm (Nat.pow 2 (f.shift r))]
  simp only [nearestRank, Nat.mul_div_cancel _ hpos, f.log2_units]
  rw [hunits, roundHalfEven_mul_self _ hden, f.significand_add_shift]

theorem pow_ten (n : Nat) : Nat.pow 10 n = Nat.pow 2 n * Nat.pow 5 n := Nat.mul_pow 2 5 n

theorem nearestRank_exact (r : Nat) :
    nearestRank f (exactCoefficient f r) (Nat.pow 10 f.scale) = r := by
  have hfive : 0 < Nat.pow 5 f.scale := natPow_pos (by decide) _
  rw [exactCoefficient, pow_ten, nearestRank_mul _ _ hfive, nearestRank_units]

theorem nearestRank_zero {den : Nat} (h : 0 < den) : nearestRank f 0 den = 0 := by
  simp [nearestRank, roundHalfEven, h]

/-! ## Dropping digits -/

/-- A decimal of fewer digits reads back and is not far above the exact one. -/
theorem cut_spec (f : BinaryFormat) (r places : Nat) :
    nearestRank f ((cut f r places).1 * Nat.pow 10 (cut f r places).2) (Nat.pow 10 f.scale) = r ∧
      (cut f r places).2 ≤ places ∧
      (cut f r places).1 * Nat.pow 10 (cut f r places).2 ≤
        exactCoefficient f r + Nat.pow 10 (cut f r places).2 := by
  induction places with
  | zero =>
    have hexact : (cut f r 0).1 * Nat.pow 10 (cut f r 0).2 = exactCoefficient f r := Nat.mul_one _
    rw [hexact]
    exact ⟨nearestRank_exact r, Nat.le_refl 0, Nat.le_add_right _ _⟩
  | succ places ih =>
    have hbelow : exactCoefficient f r / Nat.pow 10 (places + 1) * Nat.pow 10 (places + 1) ≤
        exactCoefficient f r := Nat.div_mul_le_self _ _
    rw [cut]
    split
    next habove =>
      refine ⟨?_, Nat.le_refl _, ?_⟩
      · exact beq_iff_eq.mp (Bool.and_eq_true_iff.mp habove).1
      · rw [Nat.succ_mul]
        exact Nat.add_le_add_right hbelow _
    next =>
      split
      next hfits =>
        exact ⟨beq_iff_eq.mp hfits, Nat.le_refl _, Nat.le_add_right_of_le hbelow⟩
      next =>
        obtain ⟨hrank, hplaces, hbound⟩ := ih
        exact ⟨hrank, Nat.le_succ_of_le hplaces, hbound⟩

end Binary

/-! ## The shortest decimal -/

theorem length_decimalDigits_pos (n : Nat) : 0 < (decimalDigits n).length := Nat.length_toDigits_pos

/-- A number is at least the power of ten with as many digits. -/
theorem pow_ten_le {n : Nat} (h : n ≠ 0) : Nat.pow 10 ((decimalDigits n).length - 1) ≤ n := by
  have hlength := length_decimalDigits_pos n
  by_cases hone : (decimalDigits n).length - 1 = 0
  · rw [hone]
    exact Nat.pos_of_ne_zero h
  · by_contra hlt
    have hshort := (Nat.length_toDigits_le_iff (b := 10) (by decide) (Nat.pos_of_ne_zero hone)).mpr
      (Nat.lt_of_not_le hlt)
    rw [← decimalDigits] at hshort
    omega

/-- A format whose numbers stay below the power of ten from which decimals overflow. -/
structure BinaryFormat.Wide (f : BinaryFormat) : Prop where
  fraction_le : f.fraction ≤ f.scale
  two_le : 2 ≤ f.binades

namespace Binary

variable {f : BinaryFormat} {r : Nat}

theorem exactCoefficient_pos (h : 0 < r) : 0 < exactCoefficient f r :=
  Nat.mul_pos (f.units_pos h) (natPow_pos (by decide) _)

theorem exactCoefficient_lt (hf : f.Wide) (h : r < f.finiteCount) :
    exactCoefficient f r < Nat.pow 2 f.binades * Nat.pow 10 f.scale := by
  have hb : 0 < f.binades := Nat.lt_of_lt_of_le (by decide) hf.two_le
  calc exactCoefficient f r
      < Nat.pow 2 f.fraction * Nat.pow 2 f.binades * Nat.pow 5 f.scale :=
        Nat.mul_lt_mul_of_pos_right (f.units_lt h hb) (natPow_pos (by decide) _)
    _ ≤ Nat.pow 2 f.scale * Nat.pow 2 f.binades * Nat.pow 5 f.scale := by
        refine Nat.mul_le_mul_right _ (Nat.mul_le_mul_right _ ?_)
        exact Nat.pow_le_pow_right (by decide) hf.fraction_le
    _ = Nat.pow 2 f.binades * Nat.pow 10 f.scale := by
        rw [pow_ten]
        ac_rfl

/-- What is left after digits are dropped is not zero. -/
theorem cut_ne_zero (h : 0 < r) (places : Nat) : (cut f r places).1 ≠ 0 := by
  intro hzero
  obtain ⟨hrank, -, -⟩ := cut_spec f r places
  rw [hzero, Nat.zero_mul, nearestRank_zero (natPow_pos (by decide) _)] at hrank
  omega

/-- The point of the shortest decimal stands before the place where decimals overflow. -/
theorem length_cut_le (hf : f.Wide) (h : r < f.finiteCount) (hpos : 0 < r)
    {coefficient places : Nat}
    (hcut : cut f r (decimalDigits (exactCoefficient f r)).length = (coefficient, places)) :
    (decimalDigits coefficient).length + places ≤ f.binades + f.scale := by
  have hne := cut_ne_zero (f := f) hpos (decimalDigits (exactCoefficient f r)).length
  obtain ⟨-, hplaces, hbound⟩ := cut_spec f r (decimalDigits (exactCoefficient f r)).length
  rw [hcut] at hne hplaces hbound
  dsimp only at hne hplaces hbound
  have hexact := exactCoefficient_pos (f := f) hpos
  -- the decimal is at most eleven times the number
  have hdigits : Nat.pow 10 places ≤ 10 * exactCoefficient f r := by
    calc Nat.pow 10 places
        ≤ Nat.pow 10 ((decimalDigits (exactCoefficient f r)).length - 1 + 1) :=
          Nat.pow_le_pow_right (by decide) (by omega)
      _ = 10 * Nat.pow 10 ((decimalDigits (exactCoefficient f r)).length - 1) := Nat.mul_comm _ _
      _ ≤ 10 * exactCoefficient f r := Nat.mul_le_mul_left _ (pow_ten_le (by omega))
  have heleven : coefficient * Nat.pow 10 places ≤ 11 * exactCoefficient f r := by omega
  by_contra hlong
  have hlength := length_decimalDigits_pos coefficient
  have hpower : Nat.pow 10 (f.binades + f.scale) ≤ coefficient * Nat.pow 10 places := by
    calc Nat.pow 10 (f.binades + f.scale)
        ≤ Nat.pow 10 ((decimalDigits coefficient).length - 1 + places) :=
          Nat.pow_le_pow_right (by decide) (by omega)
      _ = Nat.pow 10 ((decimalDigits coefficient).length - 1) * Nat.pow 10 places :=
          Nat.pow_add 10 _ _
      _ ≤ coefficient * Nat.pow 10 places := Nat.mul_le_mul_right _ (pow_ten_le hne)
  have hfive : 25 ≤ Nat.pow 5 f.binades := Nat.pow_le_pow_right (n := 5) (by decide) hf.two_le
  have hsplit : Nat.pow 10 (f.binades + f.scale) =
      Nat.pow 5 f.binades * (Nat.pow 2 f.binades * Nat.pow 10 f.scale) := by
    rw [show Nat.pow 10 (f.binades + f.scale) = Nat.pow 10 f.binades * Nat.pow 10 f.scale from
      Nat.pow_add 10 _ _, pow_ten f.binades]
    ac_rfl
  have hlarge := Nat.mul_le_mul_right (Nat.pow 2 f.binades * Nat.pow 10 f.scale) hfive
  have hsmall := exactCoefficient_lt hf h
  omega

theorem nearestRank_fraction (d : Decimal) {places : Nat}
    (h : d.exponent = places - (f.scale : Int)) :
    nearestRank f d.fraction.1 d.fraction.2 =
      nearestRank f (d.coefficient * Nat.pow 10 places) (Nat.pow 10 f.scale) := by
  rw [Decimal.fraction]
  split
  next e he =>
    have hplaces : places = e + f.scale := by
      rw [h, Int.ofNat_eq_natCast] at he
      omega
    have hpower : d.coefficient * Nat.pow 10 places =
        d.coefficient * Nat.pow 10 e * Nat.pow 10 f.scale := by
      rw [hplaces, Nat.mul_assoc]
      exact congrArg _ (Nat.pow_add 10 _ _)
    rw [hpower, ← nearestRank_mul _ _ (k := Nat.pow 10 f.scale) (natPow_pos (by decide) _),
      Nat.one_mul]
  next e he =>
    have hplaces : f.scale = e + 1 + places := by
      rw [h] at he
      omega
    have hpower : Nat.pow 10 f.scale = Nat.pow 10 (e + 1) * Nat.pow 10 places := by
      rw [hplaces]
      exact Nat.pow_add 10 _ _
    rw [hpower, nearestRank_mul _ _ (natPow_pos (by decide) _)]

/-- A decimal that neither vanishes nor overflows is rounded as a fraction. -/
theorem toBinary_eq_nearest {d : Decimal} (hne : d.coefficient ≠ 0)
    (hlow : -(f.scale : Int) < (decimalDigits d.coefficient).length + d.exponent)
    (hhigh : (decimalDigits d.coefficient).length + d.exponent ≤ f.binades) :
    d.toBinary = (nearest d.negative d.fraction.1 d.fraction.2 : Binary f) := by
  rw [Decimal.toBinary, if_neg, if_neg]
  · omega
  · omega

/-- The shortest decimal of a number is rounded to that number. -/
theorem toBinary_shortest (hf : f.Wide) (negative : Bool) (r : Fin f.finiteCount) :
    (shortest f negative r).toBinary = Binary.finite negative r := by
  have hrank : ofRank negative r = Binary.finite negative r := dif_pos r.isLt
  by_cases hzero : r.val = 0
  · rw [shortest, if_pos hzero, ← hrank, hzero]
    rfl
  · have hpos : 0 < r.val := Nat.pos_of_ne_zero hzero
    generalize hcut : cut f r (decimalDigits (exactCoefficient f r)).length = result
    obtain ⟨coefficient, places⟩ := result
    have hdecimal : shortest f negative r = ⟨negative, coefficient, places - (f.scale : Int)⟩ := by
      simp only [shortest, if_neg hzero, hcut]
    have hne : coefficient ≠ 0 := by
      have h := cut_ne_zero (f := f) hpos (decimalDigits (exactCoefficient f r)).length
      rwa [hcut] at h
    have hreads : nearestRank f (coefficient * Nat.pow 10 places) (Nat.pow 10 f.scale) = r := by
      have h := (cut_spec f r (decimalDigits (exactCoefficient f r)).length).1
      rwa [hcut] at h
    have hlength := length_cut_le hf r.isLt hpos hcut
    have hdigits := length_decimalDigits_pos coefficient
    rw [hdecimal, toBinary_eq_nearest hne (by dsimp only; omega) (by dsimp only; omega), nearest,
      nearestRank_fraction _ rfl, hreads, hrank]

end Binary

end NodeShader
