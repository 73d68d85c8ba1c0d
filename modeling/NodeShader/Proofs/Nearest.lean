import Mathlib.Algebra.Order.Field.Rat
import Mathlib.Data.Rat.Cast.Order
import Mathlib.Order.Monotone.Basic
import Mathlib.Tactic.FieldSimp
import Mathlib.Tactic.Linarith
import Mathlib.Tactic.Positivity
import Mathlib.Tactic.Ring
import NodeShader.Proofs.Rounding

/-!
# The nearest number of a format

Magnitudes grow with their rank (`BinaryFormat.units_strictMono`), and a fraction is rounded to
a rank of at most `r` exactly if it lies below the point halfway between `r` and the next magnitude,
or at that point if `r` is even (`Binary.nearestRank_le_iff`). So rounding is monotone
(`Binary.nearestRank_mono`).

`BinaryFormat.Nearest` says what the nearest magnitude of a rational number is: no other one is
nearer, and the rank is even if another one is as near. There is only one
(`BinaryFormat.Nearest.unique`), and the conversions from fractions and from decimals find it.

* `Binary.isNearest_nearest`: fractions are rounded to the nearest number.
* `Decimal.isNearest_toBinary`: so are decimals.
-/

namespace NodeShader

/-! ## Ranks -/

namespace BinaryFormat

variable (f : BinaryFormat)

/-- The magnitude with `m` last places, each of them `2 ^ s` units. -/
theorem units_add {m s : Nat} (hm : m ≤ 2 * f.binade) (hs : s = 0 ∨ f.binade ≤ m) :
    f.units (m + s * f.binade) = m * Nat.pow 2 s := by
  have hpos := f.binade_pos
  rcases Nat.lt_or_ge m f.binade with hlow | hhigh
  · obtain rfl : s = 0 := hs.resolve_right (Nat.not_le.mpr hlow)
    rw [Nat.zero_mul, Nat.add_zero, units, significand, if_pos hlow, f.shift_of_lt hlow]
  · obtain ⟨n, rfl⟩ := Nat.exists_eq_add_of_le hhigh
    have hnot : ¬ f.binade + n + s * f.binade < f.binade := by omega
    rw [units, significand, if_neg hnot, shift, Nat.add_mul_mod_self_right, Nat.add_mod_left,
      Nat.add_mul_div_right _ _ hpos, Nat.add_div_left _ hpos]
    rcases Nat.lt_or_ge n f.binade with hn | hn
    · rw [Nat.mod_eq_of_lt hn, Nat.div_eq_of_lt hn]
      congr 2
      omega
    · obtain rfl : n = f.binade := by omega
      have hshift : (f.binade / f.binade).succ + s - 1 = s + 1 := by
        rw [Nat.div_self hpos]
        omega
      rw [hshift, Nat.mod_self, Nat.add_zero, ← Nat.two_mul, Nat.mul_comm 2, Nat.mul_assoc]
      exact congrArg _ (Nat.pow_succ' ..)

/-- The next magnitude is one last place away. -/
theorem units_succ (r : Nat) : f.units (r + 1) = f.units r + Nat.pow 2 (f.shift r) := by
  have hlt := f.significand_lt r
  have hnormal : f.shift r = 0 ∨ f.binade ≤ f.significand r := by
    by_cases h : r < f.binade
    · exact .inl (f.shift_of_lt h)
    · rw [significand, if_neg h]
      exact .inr (Nat.le_add_right _ _)
  have hnext := f.units_add (m := f.significand r + 1) (s := f.shift r) (by omega) (by omega)
  rw [Nat.add_right_comm, f.significand_add_shift, Nat.succ_mul] at hnext
  exact hnext

theorem units_strictMono : StrictMono f.units :=
  strictMono_nat_of_lt_succ fun r => by
    rw [f.units_succ]
    exact Nat.lt_add_of_pos_right (natPow_pos (by decide) _)

/-- Twice the point halfway between magnitude `r` and the next one, in units. -/
def border (r : Nat) : Nat := f.units r + f.units (r + 1)

theorem border_add {m s : Nat} (hm : m < 2 * f.binade) (hs : s = 0 ∨ f.binade ≤ m) :
    f.border (m + s * f.binade) = (2 * m + 1) * Nat.pow 2 s := by
  have hnext := f.units_add (m := m + 1) (s := s) hm (by omega)
  rw [Nat.add_right_comm] at hnext
  rw [border, f.units_add (Nat.le_of_lt hm) hs, hnext, ← Nat.add_mul]
  congr 1
  omega

theorem units_lt_border {r s : Nat} (h : r ≤ s) : 2 * f.units r < f.border s := by
  have hmono := f.units_strictMono.monotone h
  have hnext := f.units_strictMono (Nat.lt_add_one s)
  rw [border]
  omega

theorem border_lt_units {r s : Nat} (h : r < s) : f.border r < 2 * f.units s := by
  have hmono : f.units (r + 1) ≤ f.units s := f.units_strictMono.monotone h
  have hnext := f.units_strictMono (Nat.lt_add_one r)
  rw [border]
  omega

theorem binade_even (hf : 0 < f.fraction) : f.binade % 2 = 0 := by
  obtain ⟨n, hn⟩ := Nat.exists_eq_succ_of_ne_zero (Nat.pos_iff_ne_zero.mp hf)
  rw [binade, hn]
  exact Nat.mul_mod_left _ _

end BinaryFormat

/-! ## Rounding up and down -/

theorem roundHalfEven_bounds (num den : Nat) :
    num / den ≤ roundHalfEven num den ∧ roundHalfEven num den ≤ num / den + 1 := by
  simp only [roundHalfEven]
  split_ifs <;> omega

theorem roundHalfEven_le_iff (num den : Nat) :
    roundHalfEven num den ≤ num / den ↔
      2 * (num % den) < den ∨ 2 * (num % den) = den ∧ num / den % 2 = 0 := by
  simp only [roundHalfEven]
  split_ifs <;> omega

namespace Binary

variable {f : BinaryFormat}

/-- A fraction lies between `m` and `m + 1` last places, where the last place is as in the
magnitude of that many. -/
theorem nearestRank_places (num den : Nat) : ∃ m s,
    m < 2 * f.binade ∧ (s = 0 ∨ f.binade ≤ m) ∧
      num * Nat.pow 2 f.scale / (den * Nat.pow 2 s) = m ∧
      nearestRank f num den =
        roundHalfEven (num * Nat.pow 2 f.scale) (den * Nat.pow 2 s) + s * f.binade := by
  generalize hwhole : num * Nat.pow 2 f.scale / den = whole
  refine ⟨whole / Nat.pow 2 (whole.log2 - f.fraction), whole.log2 - f.fraction, ?_, ?_, ?_, ?_⟩
  · refine Nat.div_lt_of_lt_mul ?_
    calc whole < Nat.pow 2 (whole.log2 + 1) := Nat.lt_log2_self
      _ ≤ Nat.pow 2 (whole.log2 - f.fraction + (f.fraction + 1)) :=
          Nat.pow_le_pow_right (by decide) (by omega)
      _ = Nat.pow 2 (whole.log2 - f.fraction) * (2 * f.binade) := by
          rw [BinaryFormat.binade, Nat.mul_comm 2]
          exact Nat.pow_add 2 _ _
  · by_cases h : whole.log2 ≤ f.fraction
    · exact .inl (by omega)
    · refine .inr ((Nat.le_div_iff_mul_le (natPow_pos (by decide) _)).mpr ?_)
      have hne : whole ≠ 0 := by
        rintro rfl
        simp at h
      calc f.binade * Nat.pow 2 (whole.log2 - f.fraction)
          = Nat.pow 2 (f.fraction + (whole.log2 - f.fraction)) := (Nat.pow_add 2 _ _).symm
        _ = Nat.pow 2 whole.log2 := by rw [Nat.add_sub_cancel' (by omega)]
        _ ≤ whole := Nat.log2_self_le hne
  · rw [← Nat.div_div_eq_div_mul, hwhole]
  · rw [nearestRank, hwhole]

/-- A fraction is rounded to a rank of at most `r` exactly if it lies below the point halfway to the
next one, or at that point and `r` is even. -/
theorem nearestRank_le_iff (hf : 0 < f.fraction) (num : Nat) {den : Nat} (hden : 0 < den)
    (r : Nat) :
    nearestRank f num den ≤ r ↔ 2 * (num * Nat.pow 2 f.scale) < den * f.border r ∨
      2 * (num * Nat.pow 2 f.scale) = den * f.border r ∧ r % 2 = 0 := by
  obtain ⟨m, s, hm, hs, hquotient, hrank⟩ := nearestRank_places (f := f) num den
  have hplace : 0 < den * Nat.pow 2 s := Nat.mul_pos hden (natPow_pos (by decide) _)
  have hbounds := roundHalfEven_bounds (num * Nat.pow 2 f.scale) (den * Nat.pow 2 s)
  have hround := roundHalfEven_le_iff (num * Nat.pow 2 f.scale) (den * Nat.pow 2 s)
  have hparts := Nat.div_add_mod' (num * Nat.pow 2 f.scale) (den * Nat.pow 2 s)
  have hrest := Nat.mod_lt (num * Nat.pow 2 f.scale) hplace
  rw [hquotient] at hbounds hround hparts
  rw [hrank]
  generalize num * Nat.pow 2 f.scale = scaled at *
  generalize scaled % (den * Nat.pow 2 s) = rest at *
  have hunits : den * f.units (m + s * f.binade) = m * (den * Nat.pow 2 s) := by
    rw [f.units_add (Nat.le_of_lt hm) hs]
    ac_rfl
  rcases Nat.lt_trichotomy r (m + s * f.binade) with hlt | rfl | hgt
  · -- the fraction is at least the magnitude above `r`
    have hborder := Nat.mul_lt_mul_of_pos_left (f.border_lt_units hlt) hden
    rw [Nat.mul_left_comm, hunits] at hborder
    constructor
    · intro h
      omega
    · rintro (h | ⟨h, -⟩) <;> omega
  · have hborder : den * f.border (m + s * f.binade) =
        2 * (m * (den * Nat.pow 2 s)) + den * Nat.pow 2 s := by
      rw [f.border_add hm hs]
      ring
    have hparity : (m + s * f.binade) % 2 = m % 2 := by
      rw [Nat.add_mod, Nat.mul_mod, f.binade_even hf, Nat.mul_zero, Nat.zero_mod, Nat.add_zero,
        Nat.mod_mod]
    rw [hborder, hparity, Nat.add_le_add_iff_right, hround]
    omega
  · -- the fraction is less than magnitude `r`
    have hborder := Nat.mul_lt_mul_of_pos_left (f.units_lt_border (Nat.succ_le_of_lt hgt)) hden
    have hnext := f.units_add (m := m + 1) (s := s) hm (by omega)
    rw [Nat.add_right_comm] at hnext
    have hunits' : den * f.units (m + s * f.binade + 1) =
        m * (den * Nat.pow 2 s) + den * Nat.pow 2 s := by
      rw [hnext]
      ring
    rw [Nat.mul_left_comm, Nat.succ_eq_add_one, hunits'] at hborder
    constructor
    · intro _
      omega
    · intro _
      omega

theorem nearestRank_mono (hf : 0 < f.fraction) {num num' den den' : Nat} (hden : 0 < den)
    (hden' : 0 < den') (h : num * den' ≤ num' * den) :
    nearestRank f num den ≤ nearestRank f num' den' := by
  have hself := (nearestRank_le_iff hf num' hden' _).mp (Nat.le_refl (nearestRank f num' den'))
  rw [nearestRank_le_iff hf num hden]
  generalize nearestRank f num' den' = r at hself ⊢
  have hscaled : 2 * (num * Nat.pow 2 f.scale) * den' ≤ 2 * (num' * Nat.pow 2 f.scale) * den := by
    calc 2 * (num * Nat.pow 2 f.scale) * den' = num * den' * (2 * Nat.pow 2 f.scale) := by ring
      _ ≤ num' * den * (2 * Nat.pow 2 f.scale) := Nat.mul_le_mul_right _ h
      _ = 2 * (num' * Nat.pow 2 f.scale) * den := by ring
  have hborder : den' * f.border r * den = den * f.border r * den' := by ring
  rcases hself with hlt | ⟨heq, heven⟩
  · have := Nat.mul_lt_mul_of_pos_right hlt hden
    exact .inl (Nat.lt_of_mul_lt_mul_right (a := den') (by omega))
  · rw [heq, hborder] at hscaled
    rcases Nat.lt_or_eq_of_le (Nat.le_of_mul_le_mul_right hscaled hden') with hlt | heq
    · exact .inl hlt
    · exact .inr ⟨heq, heven⟩

end Binary

/-! ## The nearest magnitude of a rational number -/

theorem abs_sub_le_abs_sub_iff {a b : ℚ} (h : a < b) (q : ℚ) :
    |a - q| ≤ |b - q| ↔ 2 * q ≤ a + b := by
  rcases abs_cases (a - q) with ⟨ha, _⟩ | ⟨ha, _⟩ <;>
    rcases abs_cases (b - q) with ⟨hb, _⟩ | ⟨hb, _⟩ <;>
    rw [ha, hb] <;> constructor <;> intro _ <;> linarith

theorem abs_sub_ge_abs_sub_iff {a b : ℚ} (h : a < b) (q : ℚ) :
    |b - q| ≤ |a - q| ↔ a + b ≤ 2 * q := by
  rcases abs_cases (a - q) with ⟨ha, _⟩ | ⟨ha, _⟩ <;>
    rcases abs_cases (b - q) with ⟨hb, _⟩ | ⟨hb, _⟩ <;>
    rw [ha, hb] <;> constructor <;> intro _ <;> linarith

namespace BinaryFormat

variable (f : BinaryFormat)

/-- The number that magnitude `r` is. -/
def magnitude (r : Nat) : ℚ := f.units r / 2 ^ f.scale

theorem magnitude_strictMono : StrictMono f.magnitude := fun r s h => by
  have hunits : (f.units r : ℚ) < f.units s := by exact_mod_cast f.units_strictMono h
  exact div_lt_div_of_pos_right hunits (by positivity)

/-- Magnitude `r` is nearest to `q`: no other magnitude is nearer, and `r` is even if another one
is as near. Magnitudes have no bound here. -/
structure Nearest (q : ℚ) (r : Nat) : Prop where
  least (s : Nat) : |f.magnitude r - q| ≤ |f.magnitude s - q|
  even (s : Nat) (hne : s ≠ r) (htie : |f.magnitude s - q| = |f.magnitude r - q|) : r % 2 = 0

variable {f}

/-- Of two even magnitudes that are as near, the one between them is nearer. -/
theorem Nearest.not_lt {q : ℚ} {r s : Nat} (hr : f.Nearest q r) (hs : f.Nearest q s) :
    ¬ r < s := by
  intro hlt
  have htie := le_antisymm (hr.least s) (hs.least r)
  have hreven := hr.even s (Nat.ne_of_gt hlt) htie.symm
  have hseven := hs.even r (Nat.ne_of_lt hlt) htie
  have hhigh := f.magnitude_strictMono (show r + 1 < s by omega)
  have hhalf := (abs_sub_ge_abs_sub_iff (f.magnitude_strictMono hlt) q).mp (hs.least r)
  have hbetween := (abs_sub_le_abs_sub_iff (f.magnitude_strictMono (Nat.lt_add_one r)) q).mp
    (hr.least (r + 1))
  linarith

/-- There is only one nearest magnitude. -/
theorem Nearest.unique {q : ℚ} {r s : Nat} (hr : f.Nearest q r) (hs : f.Nearest q s) : r = s :=
  Nat.le_antisymm (Nat.le_of_not_lt (hs.not_lt hr)) (Nat.le_of_not_lt (hr.not_lt hs))

end BinaryFormat

namespace Binary

variable {f : BinaryFormat}

theorem nearestRank_le_iff_magnitude (hf : 0 < f.fraction) (num : Nat) {den : Nat} (hden : 0 < den)
    (r : Nat) :
    nearestRank f num den ≤ r ↔ 2 * (num / den : ℚ) < f.magnitude r + f.magnitude (r + 1) ∨
      2 * (num / den : ℚ) = f.magnitude r + f.magnitude (r + 1) ∧ r % 2 = 0 := by
  have hden' : (0 : ℚ) < den := by exact_mod_cast hden
  have hpos : (0 : ℚ) < den * 2 ^ f.scale := by positivity
  have hsum : f.magnitude r + f.magnitude (r + 1) =
      (den * f.border r : Nat) / (den * 2 ^ f.scale) := by
    rw [BinaryFormat.magnitude, BinaryFormat.magnitude, BinaryFormat.border]
    push_cast
    field_simp
  have hvalue : 2 * (num / den : ℚ) =
      (2 * (num * Nat.pow 2 f.scale) : Nat) / (den * 2 ^ f.scale) := by
    push_cast [Nat.pow_eq]
    field_simp
  rw [nearestRank_le_iff hf num hden, hsum, hvalue, div_lt_div_iff_of_pos_right hpos,
    div_left_inj' hpos.ne', Nat.cast_lt, Nat.cast_inj]

/-- A fraction is rounded to the nearest magnitude. -/
theorem nearest_nearestRank (hf : 0 < f.fraction) (num : Nat) {den : Nat} (hden : 0 < den) :
    f.Nearest (num / den) (nearestRank f num den) := by
  have hself := (nearestRank_le_iff_magnitude hf num hden _).mp
    (Nat.le_refl (nearestRank f num den))
  have hbelow (r : Nat) (h : r < nearestRank f num den) :=
    mt (nearestRank_le_iff_magnitude hf num hden r).mpr (Nat.not_le.mpr h)
  generalize nearestRank f num den = r at hself hbelow
  generalize (num / den : ℚ) = q at hself hbelow
  -- which points halfway matter depends on the side on which another magnitude lies
  have hside (s : Nat) (hne : s ≠ r) : |f.magnitude r - q| ≤ |f.magnitude s - q| ∧
      (|f.magnitude s - q| = |f.magnitude r - q| → r % 2 = 0) := by
    rcases Nat.lt_or_gt_of_ne hne with hlt | hgt
    · have hnot := hbelow (r - 1) (by omega)
      rw [Nat.sub_add_cancel (by omega), not_or, not_and_or, not_lt] at hnot
      have hmono := f.magnitude_strictMono.monotone (show s ≤ r - 1 by omega)
      have hstrict := f.magnitude_strictMono hlt
      refine ⟨(abs_sub_ge_abs_sub_iff hstrict q).mpr (by linarith), fun htie => ?_⟩
      have hhalf := (abs_sub_le_abs_sub_iff hstrict q).mp htie.le
      have hodd := hnot.2.resolve_left (not_not_intro (by linarith))
      omega
    · have hmono : f.magnitude (r + 1) ≤ f.magnitude s := f.magnitude_strictMono.monotone hgt
      have hstrict := f.magnitude_strictMono hgt
      have hle : 2 * q ≤ f.magnitude r + f.magnitude (r + 1) :=
        hself.elim le_of_lt fun h => h.1.le
      refine ⟨(abs_sub_le_abs_sub_iff hstrict q).mpr (by linarith), fun htie => ?_⟩
      have hhalf := (abs_sub_ge_abs_sub_iff hstrict q).mp htie.le
      exact (hself.resolve_left (by linarith)).2
  constructor
  · intro s
    by_cases hne : s = r
    · rw [hne]
    · exact (hside s hne).1
  · intro s hne
    exact (hside s hne).2

/-- A number is the nearest one to `± q`: a magnitude past the last finite one overflows. -/
def IsNearest (negative : Bool) (q : ℚ) (x : Binary f) : Prop :=
  ∃ r, f.Nearest q r ∧ x = ofRank negative r

theorem IsNearest.unique {negative : Bool} {q : ℚ} {x y : Binary f} (hx : x.IsNearest negative q)
    (hy : y.IsNearest negative q) : x = y := by
  obtain ⟨r, hr, rfl⟩ := hx
  obtain ⟨s, hs, rfl⟩ := hy
  rw [hr.unique hs]

/-- A fraction is rounded to the nearest number. -/
theorem isNearest_nearest (hf : 0 < f.fraction) (negative : Bool) (num : Nat) {den : Nat}
    (hden : 0 < den) : IsNearest negative (num / den) (nearest negative num den : Binary f) :=
  ⟨_, nearest_nearestRank hf num hden, rfl⟩

end Binary

/-! ## Decimals -/

theorem lt_pow_ten (n : Nat) : n < Nat.pow 10 (decimalDigits n).length :=
  (Nat.length_toDigits_le_iff (by decide) Nat.length_toDigits_pos).mp (Nat.le_refl _)

namespace Decimal

variable {f : BinaryFormat} (d : Decimal)

/-- The number that a decimal is, without its sign. -/
def magnitude : ℚ := d.coefficient * 10 ^ d.exponent

theorem fraction_pos : 0 < d.fraction.2 := by
  rw [fraction]
  split
  · exact Nat.one_pos
  · exact natPow_pos (by decide) _

theorem magnitude_eq : d.magnitude = d.fraction.1 / d.fraction.2 := by
  rw [magnitude, fraction]
  split
  next e he =>
    rw [he]
    simp
  next e he =>
    rw [he]
    simp [zpow_negSucc, div_eq_mul_inv]

/-- A decimal with all its digits after place `scale` is less than half the least magnitude. -/
theorem nearestRank_of_small (hw : f.Wide) (hf : 0 < f.fraction)
    (h : (decimalDigits d.coefficient).length + d.exponent ≤ -(f.scale : Int)) :
    Binary.nearestRank f d.fraction.1 d.fraction.2 = 0 := by
  have hscale : 0 < f.scale := Nat.lt_of_lt_of_le hf hw.fraction_le
  have hborder : f.border 0 = 1 := by
    simpa using f.border_add (m := 0) (s := 0) (Nat.mul_pos (by decide) f.binade_pos) (.inl rfl)
  refine Nat.le_zero.mp ((Binary.nearestRank_le_iff hf _ d.fraction_pos 0).mpr (.inl ?_))
  rw [hborder, Nat.mul_one, fraction]
  split
  next e he =>
    rw [he, Int.ofNat_eq_natCast] at h
    omega
  next e he =>
    have hplaces : f.scale + (decimalDigits d.coefficient).length ≤ e + 1 := by
      rw [he] at h
      omega
    have hfive : 2 ≤ Nat.pow 5 f.scale :=
      Nat.le_trans (by decide) (Nat.pow_le_pow_right (n := 5) (by decide) hscale)
    calc 2 * (d.coefficient * Nat.pow 2 f.scale)
        = 2 * Nat.pow 2 f.scale * d.coefficient := by ring
      _ < 2 * Nat.pow 2 f.scale * Nat.pow 10 (decimalDigits d.coefficient).length :=
          Nat.mul_lt_mul_of_pos_left (lt_pow_ten _)
            (Nat.mul_pos (by decide) (natPow_pos (by decide) _))
      _ ≤ Nat.pow 5 f.scale * Nat.pow 2 f.scale * Nat.pow 10 (decimalDigits d.coefficient).length :=
          Nat.mul_le_mul_right _ (Nat.mul_le_mul_right _ hfive)
      _ = Nat.pow 10 (f.scale + (decimalDigits d.coefficient).length) := by
          rw [Nat.mul_comm (Nat.pow 5 _), ← Binary.pow_ten]
          exact (Nat.pow_add 10 _ _).symm
      _ ≤ Nat.pow 10 (e + 1) := Nat.pow_le_pow_right (by decide) hplaces

/-- A decimal with more than `binades` digits before the point is past all magnitudes. -/
theorem finiteCount_le_nearestRank (hw : f.Wide) (hf : 0 < f.fraction) (hne : d.coefficient ≠ 0)
    (h : (f.binades : Int) < (decimalDigits d.coefficient).length + d.exponent) :
    f.finiteCount ≤ Binary.nearestRank f d.fraction.1 d.fraction.2 := by
  have hunits : f.units f.finiteCount = f.binade * Nat.pow 2 f.binades := by
    rw [BinaryFormat.finiteCount, Nat.succ_mul, Nat.add_comm]
    exact f.units_add (Nat.le_mul_of_pos_left _ (by decide)) (.inr (Nat.le_refl _))
  have hlarge : Nat.pow 10 f.binades * d.fraction.2 ≤ d.fraction.1 := by
    have hdigits := pow_ten_le hne
    rw [fraction]
    split
    next e he =>
      have hplaces : f.binades ≤ (decimalDigits d.coefficient).length - 1 + e := by
        rw [he, Int.ofNat_eq_natCast] at h
        omega
      calc Nat.pow 10 f.binades * 1
          ≤ Nat.pow 10 ((decimalDigits d.coefficient).length - 1 + e) := by
            rw [Nat.mul_one]
            exact Nat.pow_le_pow_right (by decide) hplaces
        _ = Nat.pow 10 ((decimalDigits d.coefficient).length - 1) * Nat.pow 10 e :=
            Nat.pow_add 10 _ _
        _ ≤ d.coefficient * Nat.pow 10 e := Nat.mul_le_mul_right _ hdigits
    next e he =>
      have hplaces : f.binades + (e + 1) ≤ (decimalDigits d.coefficient).length - 1 := by
        rw [he] at h
        omega
      calc Nat.pow 10 f.binades * Nat.pow 10 (e + 1)
          = Nat.pow 10 (f.binades + (e + 1)) := (Nat.pow_add 10 _ _).symm
        _ ≤ Nat.pow 10 ((decimalDigits d.coefficient).length - 1) :=
            Nat.pow_le_pow_right (by decide) hplaces
        _ ≤ d.coefficient := hdigits
  rw [← Binary.nearestRank_units (f := f) f.finiteCount]
  refine Binary.nearestRank_mono hf (natPow_pos (by decide) _) d.fraction_pos ?_
  calc f.units f.finiteCount * d.fraction.2
      = Nat.pow 2 f.fraction * (Nat.pow 2 f.binades * d.fraction.2) := by
        rw [hunits, BinaryFormat.binade, Nat.mul_assoc]
    _ ≤ Nat.pow 2 f.scale * (Nat.pow 10 f.binades * d.fraction.2) :=
        Nat.mul_le_mul (Nat.pow_le_pow_right (by decide) hw.fraction_le)
          (Nat.mul_le_mul_right _ (Nat.pow_le_pow_left (by decide) _))
    _ ≤ Nat.pow 2 f.scale * d.fraction.1 := Nat.mul_le_mul_left _ hlarge
    _ = d.fraction.1 * Nat.pow 2 f.scale := Nat.mul_comm _ _

/-- Decimals that vanish or overflow are no exception to rounding. -/
theorem toBinary_eq (hw : f.Wide) (hf : 0 < f.fraction) :
    d.toBinary = (Binary.nearest d.negative d.fraction.1 d.fraction.2 : Binary f) := by
  by_cases hzero : d.coefficient = 0
  · have hnum : d.fraction.1 = 0 := by
      rw [fraction]
      split <;> simp [hzero]
    rw [toBinary, if_pos (.inl hzero), Binary.nearest, hnum,
      Binary.nearestRank_zero d.fraction_pos]
  · by_cases hlow : (decimalDigits d.coefficient).length + d.exponent ≤ -(f.scale : Int)
    · rw [toBinary, if_pos (.inr hlow), Binary.nearest, d.nearestRank_of_small hw hf hlow]
    · by_cases hhigh : (f.binades : Int) < (decimalDigits d.coefficient).length + d.exponent
      · have hpast := d.finiteCount_le_nearestRank hw hf hzero hhigh
        rw [toBinary, if_neg (by omega), if_pos hhigh, Binary.nearest, Binary.ofRank,
          dif_neg (Nat.not_lt.mpr hpast)]
      · exact Binary.toBinary_eq_nearest hzero (by omega) (by omega)

/-- A decimal is rounded to the nearest number. -/
theorem isNearest_toBinary (hw : f.Wide) (hf : 0 < f.fraction) :
    Binary.IsNearest d.negative d.magnitude (d.toBinary : Binary f) := by
  rw [d.toBinary_eq hw hf, magnitude_eq]
  exact Binary.isNearest_nearest hf _ _ d.fraction_pos

end Decimal

end NodeShader
