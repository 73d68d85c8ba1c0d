import NodeShader.Proofs.Nearest

/-!
# The shortest decimal

The fractions that are rounded to one magnitude form an interval (`Binary.nearestRank_between`).
Digits are dropped from the exact decimal of a number until neither neighbour on the next coarser
grid is in the interval, so nothing on a coarser grid is (`Binary.cut_maximal`). A decimal with
fewer digits would have a power of ten between itself and the result, on such a grid.

* `Binary.shortest_least`: no decimal with fewer digits is rounded to the number.
-/

namespace NodeShader

/-- A decimal is at most the power of ten with as many digits before the point. -/
theorem Decimal.fraction_le_pow (d : Decimal) {scale places : Nat}
    (h : (decimalDigits d.coefficient).length + d.exponent + scale ≤ places) :
    d.fraction.1 * Nat.pow 10 scale ≤ Nat.pow 10 places * d.fraction.2 := by
  have hcoefficient := Nat.le_of_lt (lt_pow_ten d.coefficient)
  rw [fraction]
  split
  next e he =>
    have hplaces : (decimalDigits d.coefficient).length + e + scale ≤ places := by
      rw [he, Int.ofNat_eq_natCast] at h
      omega
    calc d.coefficient * Nat.pow 10 e * Nat.pow 10 scale
        ≤ Nat.pow 10 (decimalDigits d.coefficient).length * Nat.pow 10 e * Nat.pow 10 scale :=
          Nat.mul_le_mul_right _ (Nat.mul_le_mul_right _ hcoefficient)
      _ = Nat.pow 10 ((decimalDigits d.coefficient).length + e + scale) := by
          simp only [Nat.pow_eq, Nat.pow_add]
      _ ≤ Nat.pow 10 places := Nat.pow_le_pow_right (by decide) hplaces
      _ = Nat.pow 10 places * 1 := (Nat.mul_one _).symm
  next e he =>
    have hplaces : (decimalDigits d.coefficient).length + scale ≤ places + (e + 1) := by
      rw [he] at h
      omega
    calc d.coefficient * Nat.pow 10 scale
        ≤ Nat.pow 10 (decimalDigits d.coefficient).length * Nat.pow 10 scale :=
          Nat.mul_le_mul_right _ hcoefficient
      _ = Nat.pow 10 ((decimalDigits d.coefficient).length + scale) := (Nat.pow_add 10 _ _).symm
      _ ≤ Nat.pow 10 (places + (e + 1)) := Nat.pow_le_pow_right (by decide) hplaces
      _ = Nat.pow 10 places * Nat.pow 10 (e + 1) := Nat.pow_add 10 _ _

namespace Binary

variable {f : BinaryFormat} {r : Nat}

/-- What lies between two fractions that are rounded to one magnitude is rounded to it, too. -/
theorem nearestRank_between (hf : 0 < f.fraction) {a b c x y z : Nat} (hx : 0 < x) (hy : 0 < y)
    (hz : 0 < z) (hab : a * y ≤ b * x) (hbc : b * z ≤ c * y) (ha : nearestRank f a x = r)
    (hc : nearestRank f c z = r) : nearestRank f b y = r := by
  have hlow := nearestRank_mono hf hx hy hab
  have hhigh := nearestRank_mono hf hy hz hbc
  omega

/-- No decimal on a grid that was passed over is rounded to the number: one of the number's two
neighbours on the grid would be, since it lies between them. -/
theorem cut_maximal (hf : 0 < f.fraction) {places p : Nat} (hlt : (cut f r places).2 < p)
    (hle : p ≤ places) (c : Nat) :
    nearestRank f (c * Nat.pow 10 p) (Nat.pow 10 f.scale) ≠ r := by
  induction places with
  | zero => omega
  | succ places ih =>
    rw [cut] at hlt
    split at hlt
    next =>
      dsimp only at hlt
      omega
    next hnot =>
      split at hlt
      next =>
        dsimp only at hlt
        omega
      next hbelow =>
        have habove : readsBack f r (exactCoefficient f r / Nat.pow 10 (places + 1) + 1)
            (places + 1) ≠ true := by
          intro h
          simp only [h, Bool.true_and, Bool.eq_false_of_not_eq_true hbelow, Bool.not_false,
            Bool.true_or, not_true_eq_false] at hnot
        rcases Nat.lt_or_eq_of_le hle with hlt' | rfl
        · exact ih hlt (Nat.le_of_lt_succ hlt')
        · intro hreads
          have hscale : 0 < Nat.pow 10 f.scale := natPow_pos (by decide) _
          have hunit : 0 < Nat.pow 10 (places + 1) := natPow_pos (by decide) _
          have hexact := nearestRank_exact (f := f) r
          rcases Nat.lt_or_ge (exactCoefficient f r / Nat.pow 10 (places + 1)) c with hc | hc
          · -- the neighbour above is between the number and `c`
            refine habove (beq_iff_eq.mpr ?_)
            refine nearestRank_between hf hscale hscale hscale ?_ ?_ hexact hreads
            · exact Nat.mul_le_mul_right _ (Nat.le_of_lt (Nat.lt_mul_of_div_lt
                (Nat.lt_succ_self _) hunit))
            · exact Nat.mul_le_mul_right _ (Nat.mul_le_mul_right _ hc)
          · -- the neighbour below is between `c` and the number
            refine hbelow (beq_iff_eq.mpr ?_)
            refine nearestRank_between hf hscale hscale hscale ?_ ?_ hreads hexact
            · exact Nat.mul_le_mul_right _ (Nat.mul_le_mul_right _ hc)
            · exact Nat.mul_le_mul_right _ (Nat.div_mul_le_self _ _)

/-- The power of ten with as many digits as the result is on a grid that was tried. -/
theorem length_cut_le_digits {c p : Nat}
    (hcut : cut f r (decimalDigits (exactCoefficient f r)).length = (c, p)) (hc : c ≠ 0)
    (htwo : 1 < (decimalDigits c).length) :
    (decimalDigits c).length - 1 + p ≤ (decimalDigits (exactCoefficient f r)).length := by
  obtain ⟨-, -, hbound⟩ := cut_spec f r (decimalDigits (exactCoefficient f r)).length
  rw [hcut] at hbound
  dsimp only at hbound
  have hexact := lt_pow_ten (exactCoefficient f r)
  generalize (decimalDigits (exactCoefficient f r)).length = digits at *
  by_contra hlong
  have hpower : Nat.pow 10 ((decimalDigits c).length - 1 + p) ≤ c * Nat.pow 10 p := by
    rw [show Nat.pow 10 ((decimalDigits c).length - 1 + p) = _ from Nat.pow_add 10 _ _]
    exact Nat.mul_le_mul_right _ (pow_ten_le hc)
  have hdigits : Nat.pow 10 (digits + 1) ≤ Nat.pow 10 ((decimalDigits c).length - 1 + p) :=
    Nat.pow_le_pow_right (by decide) (by omega)
  have hplaces : Nat.pow 10 (p + 1) ≤ Nat.pow 10 ((decimalDigits c).length - 1 + p) :=
    Nat.pow_le_pow_right (by decide) (by omega)
  have hten (n : Nat) : Nat.pow 10 (n + 1) = Nat.pow 10 n * 10 := rfl
  rw [hten] at hdigits hplaces
  omega

/-- No decimal that is rounded to the number has fewer digits than the result. -/
theorem length_cut_least (hf : 0 < f.fraction) (hr : 0 < r) {c p : Nat}
    (hcut : cut f r (decimalDigits (exactCoefficient f r)).length = (c, p)) (other : Decimal)
    (hother : nearestRank f other.fraction.1 other.fraction.2 = r) :
    (decimalDigits c).length ≤ (decimalDigits other.coefficient).length := by
  have hmaximal {place : Nat} (hlt : p < place)
      (hle : place ≤ (decimalDigits (exactCoefficient f r)).length) (coefficient : Nat) :=
    cut_maximal hf (r := r) (p := place) (by rwa [hcut]) hle coefficient
  obtain ⟨hreads, hplaces, hbound⟩ := cut_spec f r (decimalDigits (exactCoefficient f r)).length
  have hc := cut_ne_zero (f := f) hr (decimalDigits (exactCoefficient f r)).length
  rw [hcut] at hreads hplaces hbound hc
  dsimp only at hreads hplaces hbound hc
  have hscale : 0 < Nat.pow 10 f.scale := natPow_pos (by decide) _
  have hone := length_decimalDigits_pos other.coefficient
  by_contra hfewer
  rw [Nat.not_le] at hfewer
  have htried := length_cut_le_digits hcut hc (by omega)
  rcases Int.lt_or_le (p - (f.scale : Int)) other.exponent with hcoarse | hfine
  · -- the other decimal is on a coarser grid
    obtain ⟨place, hplace⟩ := Int.eq_ofNat_of_zero_le (a := other.exponent + f.scale) (by omega)
    have hexponent : other.exponent = place - (f.scale : Int) := by omega
    rw [nearestRank_fraction other hexponent] at hother
    rcases Nat.lt_or_ge (decimalDigits (exactCoefficient f r)).length place with hpast | hle
    · -- the power of ten above the number is between the number and the other decimal
      have hpower : nearestRank f (1 * Nat.pow 10 (decimalDigits (exactCoefficient f r)).length)
          (Nat.pow 10 f.scale) = r := by
        refine nearestRank_between hf hscale hscale hscale ?_ ?_ (nearestRank_exact r) hother
        · rw [Nat.one_mul]
          exact Nat.mul_le_mul_right _ (Nat.le_of_lt (lt_pow_ten _))
        · have hne : other.coefficient ≠ 0 := by
            intro hzero
            rw [hzero, Nat.zero_mul, nearestRank_zero hscale] at hother
            omega
          exact Nat.mul_le_mul_right _ (Nat.mul_le_mul (Nat.pos_of_ne_zero hne)
            (Nat.pow_le_pow_right (by decide) (Nat.le_of_lt hpast)))
      exact hmaximal (by omega) (Nat.le_refl _) 1 hpower
    · exact hmaximal (by omega) hle _ hother
  · -- the first power of ten with as many digits as the result is between the two
    have hpower : nearestRank f (1 * Nat.pow 10 ((decimalDigits c).length - 1 + p))
        (Nat.pow 10 f.scale) = r := by
      refine nearestRank_between hf other.fraction_pos hscale hscale ?_ ?_ hother hreads
      · rw [Nat.one_mul]
        exact other.fraction_le_pow (by omega)
      · rw [Nat.one_mul, show Nat.pow 10 ((decimalDigits c).length - 1 + p) = _ from
          Nat.pow_add 10 _ _]
        exact Nat.mul_le_mul_right _ (Nat.mul_le_mul_right _ (pow_ten_le hc))
    exact hmaximal (by omega) htried 1 hpower

theorem nearestRank_of_isNearest (hf : 0 < f.fraction) {negative : Bool}
    {rank : Fin f.finiteCount} {d : Decimal}
    (h : (Binary.finite negative rank).IsNearest d.negative d.magnitude) :
    nearestRank f d.fraction.1 d.fraction.2 = rank := by
  obtain ⟨s, hs, heq⟩ := h
  rw [d.magnitude_eq] at hs
  have hsame := (nearest_nearestRank hf _ d.fraction_pos).unique hs
  rw [ofRank] at heq
  split at heq
  · cases heq
    exact hsame
  · cases heq

/-- No decimal with fewer digits is rounded to the number. -/
theorem shortest_least (hf : 0 < f.fraction) {negative : Bool} {rank : Fin f.finiteCount}
    {other : Decimal} (h : (Binary.finite negative rank).IsNearest other.negative other.magnitude) :
    (decimalDigits (shortest f negative rank).coefficient).length ≤
      (decimalDigits other.coefficient).length := by
  by_cases hzero : rank.val = 0
  · have hone : (decimalDigits 0).length = 1 := rfl
    rw [shortest, if_pos hzero, hone]
    exact length_decimalDigits_pos _
  · rw [shortest, if_neg hzero]
    exact length_cut_least hf (Nat.pos_of_ne_zero hzero) rfl other (nearestRank_of_isNearest hf h)

end Binary

end NodeShader
