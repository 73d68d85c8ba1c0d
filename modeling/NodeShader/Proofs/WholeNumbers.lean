import Mathlib.Order.WithBot
import NodeShader.Proofs.Constants

/-!
# Whole numbers as parameters

A whole number reaches a parameter as the nearest number of double precision. That number is the
whole number itself if this has at most as many bits as a significand (`Binary.ofInt_hasValue`), and
it is far out of 32 bits otherwise (`Binary.binade_le_natAbs`). So a whole number of 32 bits stands
for itself only (`ofInt_hasValue_iff`).

* `Binary.HasValue`: the exact value of a number, which may be infinite;
* `Parameter.Admits`: what the bounds of a parameter say about exact values;
* `whole_parameters_exact`: which values a parameter of whole numbers accepts, and that it keeps
  them as they are.
-/

namespace NodeShader

/-! ## Exact values -/

namespace BinaryFormat

variable {f : BinaryFormat}

theorem magnitude_zero : f.magnitude 0 = 0 := by
  simp [magnitude, units, significand]

theorem magnitude_nonneg (r : Nat) : 0 ≤ f.magnitude r := by
  rw [magnitude]
  positivity

theorem magnitude_pos {r : Nat} (h : 0 < r) : 0 < f.magnitude r := by
  have hlt := f.magnitude_strictMono h
  rwa [magnitude_zero] at hlt

/-- The finite value of this sign and rank. -/
def signedMagnitude (f : BinaryFormat) (negative : Bool) (r : Nat) : ℚ :=
  if negative then -f.magnitude r else f.magnitude r

theorem signedMagnitude_lt_iff {a b : Bool} {r s : Nat} :
    f.signedMagnitude a r < f.signedMagnitude b s ↔
      (if a then -(r : Int) else r) < (if b then -(s : Int) else s) := by
  have hmono {r s : Nat} : f.magnitude r < f.magnitude s ↔ r < s :=
    f.magnitude_strictMono.lt_iff_lt
  have hr := magnitude_nonneg (f := f) r
  have hs := magnitude_nonneg (f := f) s
  cases a <;> cases b <;> simp only [signedMagnitude, Bool.false_eq_true, if_true, if_false]
  · rw [hmono]
    omega
  · -- nothing that is not negative lies below the negated
    constructor
    · intro h
      linarith
    · intro h
      omega
  · constructor
    · intro h
      by_contra hnot
      obtain ⟨rfl, rfl⟩ : r = 0 ∧ s = 0 := by omega
      simp [magnitude_zero] at h
    · intro h
      rcases Nat.eq_zero_or_pos r with rfl | hpos
      · have := magnitude_pos (f := f) (r := s) (by omega)
        linarith
      · have := magnitude_pos (f := f) hpos
        linarith
  · rw [neg_lt_neg_iff, hmono]
    omega

end BinaryFormat

namespace Binary

variable {f : BinaryFormat}

/-- The exact value of a number. -/
inductive HasValue : Binary f → WithBot (WithTop ℚ) → Prop where
  | finite (negative : Bool) (rank : Fin f.finiteCount) :
    HasValue (.finite negative rank) ((f.signedMagnitude negative rank : ℚ) : WithTop ℚ)
  | top : HasValue (.infinite false) ((⊤ : WithTop ℚ) : WithBot (WithTop ℚ))
  | bottom : HasValue (.infinite true) ⊥

theorem hasValue_finite {negative : Bool} {rank : Fin f.finiteCount} {q : ℚ} :
    (finite negative rank).HasValue (q : WithTop ℚ) ↔ f.signedMagnitude negative rank = q := by
  constructor
  · intro h
    cases h
    rfl
  · rintro rfl
    exact .finite negative rank

theorem not_hasValue_infinite {negative : Bool} {q : ℚ} :
    ¬ (infinite negative : Binary f).HasValue (q : WithTop ℚ) := by
  rintro ⟨⟩

theorem nan_or_hasValue (x : Binary f) : x = .nan ∨ ∃ v, x.HasValue v := by
  cases x with
  | finite negative rank => exact .inr ⟨_, .finite negative rank⟩
  | infinite negative =>
    cases negative
    · exact .inr ⟨_, .top⟩
    · exact .inr ⟨_, .bottom⟩
  | nan => exact .inl rfl

theorem lt_eq {x y : Binary f} {i j : Int} (hx : x.position? = some i) (hy : y.position? = some j) :
    x.lt y = decide (i < j) := by
  rw [lt, hx, hy]

/-- Numbers are compared as their values are. -/
theorem lt_iff {x y : Binary f} {u v : WithBot (WithTop ℚ)} (hx : x.HasValue u)
    (hy : y.HasValue v) : x.lt y = true ↔ u < v := by
  have hcount : 0 < f.finiteCount := Nat.mul_pos (Nat.succ_pos _) f.binade_pos
  -- an infinity lies outside of all ranks, so only two finite numbers need their magnitudes
  cases hx <;> cases hy <;> rw [lt_eq rfl rfl, decide_eq_true_iff]
  case finite.finite =>
    rw [WithBot.coe_lt_coe, WithTop.coe_lt_coe, BinaryFormat.signedMagnitude_lt_iff]
  case finite.top a r =>
    refine iff_of_true ?_ (WithBot.coe_lt_coe.mpr (WithTop.coe_lt_top _))
    grind
  case finite.bottom a r =>
    refine iff_of_false ?_ not_lt_bot
    grind
  case top.finite b s =>
    refine iff_of_false ?_ (WithBot.coe_lt_coe.not.mpr not_top_lt)
    grind
  case top.top => simp
  case top.bottom =>
    refine iff_of_false ?_ not_lt_bot
    grind
  case bottom.finite b s =>
    refine iff_of_true ?_ (WithBot.bot_lt_coe _)
    grind
  case bottom.top =>
    refine iff_of_true ?_ (WithBot.bot_lt_coe _)
    grind
  case bottom.bottom => simp

theorem exists_hasValue_of_lt {x y : Binary f} (h : x.lt y = true) :
    (∃ u, x.HasValue u) ∧ ∃ v, y.HasValue v := by
  rcases x.nan_or_hasValue with rfl | hx
  · cases h
  rcases y.nan_or_hasValue with rfl | hy
  · rw [lt] at h
    split at h
    next => contradiction
    next => cases h
  exact ⟨hx, hy⟩

/-! ## Whole numbers -/

/-- A magnitude is a whole number if it counts so many times the units of one. -/
theorem magnitude_eq_natCast_iff {r n : Nat} :
    f.magnitude r = n ↔ f.units r = n * Nat.pow 2 f.scale := by
  rw [BinaryFormat.magnitude, div_eq_iff (by positivity)]
  exact_mod_cast Iff.rfl

theorem abs_signedMagnitude (negative : Bool) (r : Nat) :
    |f.signedMagnitude negative r| = f.magnitude r := by
  have h := abs_of_nonneg (BinaryFormat.magnitude_nonneg (f := f) r)
  cases negative <;> simp [BinaryFormat.signedMagnitude, h]

theorem magnitude_eq_natAbs {negative : Bool} {r : Nat} {n : Int}
    (h : f.signedMagnitude negative r = n) : f.magnitude r = n.natAbs := by
  rw [← abs_signedMagnitude negative, h, Nat.cast_natAbs, Int.cast_abs]

/-- The value of a number is whole exactly if `toInt?` finds it. -/
theorem toInt?_eq_some_iff {x : Binary f} {n : Int} :
    x.toInt? = some n ↔ x.HasValue ((n : ℚ) : WithTop ℚ) := by
  cases x with
  | finite negative rank =>
    rw [hasValue_finite, toInt?]
    dsimp only
    split
    next hdvd =>
      have hwhole : f.magnitude rank = (f.units rank / Nat.pow 2 f.scale : Nat) :=
        magnitude_eq_natCast_iff.mpr (Nat.div_mul_cancel (Nat.dvd_of_mod_eq_zero hdvd)).symm
      rw [BinaryFormat.signedMagnitude, hwhole, Option.some.injEq]
      generalize f.units rank / Nat.pow 2 f.scale = whole
      cases negative <;> simp only [Bool.false_eq_true, if_true, if_false] <;> norm_cast
    next hdvd =>
      refine iff_of_false (by simp) fun hvalue => hdvd ?_
      rw [magnitude_eq_natCast_iff.mp (magnitude_eq_natAbs hvalue)]
      exact Nat.mul_mod_left _ _
  | infinite negative => exact iff_of_false (by simp [toInt?]) not_hasValue_infinite
  | nan =>
    refine iff_of_false (by simp [toInt?]) ?_
    rintro ⟨⟩

/-- A whole number of at most as many bits as a significand is a magnitude. -/
theorem magnitude_nearestRank {n : Nat} (hn : n < 2 * f.binade) :
    f.magnitude (nearestRank f n 1) = n := by
  obtain ⟨m, s, hm, hs, hquotient, hrank⟩ := nearestRank_places (f := f) n 1
  rw [Nat.one_mul] at hquotient hrank
  have hpos : 0 < Nat.pow 2 s := natPow_pos (by decide) s
  -- the last place is at most one, so that nothing is left to round
  have hshift : s ≤ f.scale := by
    by_contra hlarge
    have hpow : 2 * Nat.pow 2 f.scale ≤ Nat.pow 2 s := by
      calc 2 * Nat.pow 2 f.scale = Nat.pow 2 (f.scale + 1) := Nat.pow_succ'.symm
        _ ≤ Nat.pow 2 s := Nat.pow_le_pow_right (by decide) (Nat.lt_of_not_le hlarge)
    have hbinade : f.binade ≤ m := hs.resolve_left (by omega)
    have hle : m * Nat.pow 2 s ≤ n * Nat.pow 2 f.scale := by
      rw [← hquotient]
      exact Nat.div_mul_le_self _ _
    have hlt : n * Nat.pow 2 f.scale < f.binade * (2 * Nat.pow 2 f.scale) := by
      rw [← Nat.mul_assoc, Nat.mul_comm f.binade]
      exact Nat.mul_lt_mul_of_pos_right hn (natPow_pos (by decide) _)
    exact absurd (Nat.mul_le_mul hbinade hpow) (by omega)
  have hscaled : n * Nat.pow 2 f.scale = n * Nat.pow 2 (f.scale - s) * Nat.pow 2 s := by
    rw [Nat.mul_assoc]
    exact congrArg _ (Nat.pow_sub_mul_pow 2 hshift).symm
  rw [hscaled, Nat.mul_div_cancel _ hpos] at hquotient
  rw [magnitude_eq_natCast_iff, hrank, hscaled, roundHalfEven_mul_self _ hpos, hquotient,
    f.units_add (Nat.le_of_lt hm) hs]

theorem signedMagnitude_of_nearestRank {n : Int} (hn : n.natAbs < 2 * f.binade) :
    f.signedMagnitude (decide (n < 0)) (nearestRank f n.natAbs 1) = n := by
  rw [BinaryFormat.signedMagnitude, magnitude_nearestRank hn, Nat.cast_natAbs]
  by_cases hneg : n < 0
  · simp [hneg, abs_of_neg hneg]
  · simp [hneg, abs_of_nonneg (Int.not_lt.mp hneg)]

/-- Whole numbers of at most 53 bits are numbers of double precision. -/
theorem ofInt_hasValue {n : Int} (hn : n.natAbs < 2 * BinaryFormat.double.binade) :
    (ofInt n : Double).HasValue ((n : ℚ) : WithTop ℚ) := by
  have hfinite : nearestRank .double n.natAbs 1 < BinaryFormat.double.finiteCount := by
    calc nearestRank .double n.natAbs 1
        ≤ nearestRank .double (2 * BinaryFormat.double.binade) 1 :=
          nearestRank_mono (by decide) Nat.one_pos Nat.one_pos (by omega)
      _ < BinaryFormat.double.finiteCount := by decide +kernel
  rw [ofInt, nearest, ofRank, dif_pos hfinite, hasValue_finite]
  exact signedMagnitude_of_nearestRank hn

/-- Larger whole numbers stay large. -/
theorem binade_le_natAbs {n m : Int} (hn : BinaryFormat.double.binade ≤ n.natAbs)
    (hm : (ofInt n : Double).HasValue ((m : ℚ) : WithTop ℚ)) :
    BinaryFormat.double.binade ≤ m.natAbs := by
  rw [ofInt, nearest, ofRank] at hm
  split at hm
  next hfinite =>
    have hmagnitude := magnitude_eq_natAbs (hasValue_finite.mp hm)
    have hle : nearestRank .double BinaryFormat.double.binade 1 ≤ nearestRank .double n.natAbs 1 :=
      nearestRank_mono (by decide) Nat.one_pos Nat.one_pos (by omega)
    have hmono := BinaryFormat.double.magnitude_strictMono.monotone hle
    rw [magnitude_nearestRank (by decide), hmagnitude] at hmono
    exact_mod_cast hmono
  next => exact absurd hm not_hasValue_infinite

end Binary

/-! ## Parameters -/

namespace Parameter

variable {p : Parameter}

/-- The value lies within the bounds. What is not a number bounds nothing. -/
structure Admits (p : Parameter) (q : ℚ) : Prop where
  min_le : ∀ bound ∈ p.min, ∀ v, bound.HasValue v → v ≤ ((q : WithTop ℚ) : WithBot (WithTop ℚ))
  le_max : ∀ bound ∈ p.max, ∀ v, bound.HasValue v → ((q : WithTop ℚ) : WithBot (WithTop ℚ)) ≤ v

/-- A finite number passes the check of the bounds exactly if its value lies within them. -/
theorem checkBounds_eq_ok_iff {x : Double} {q : ℚ} (hx : x.HasValue (q : WithTop ℚ)) :
    p.checkBounds x = .ok () ↔ p.Admits q := by
  have hfinite : x.isFinite = true := by
    cases hx
    rfl
  rw [checkBounds, hfinite, if_neg (by decide)]
  split
  next hout =>
    refine iff_of_false (by simp) fun hadmits => ?_
    rw [Bool.or_eq_true, Option.any_eq_true, Option.any_eq_true] at hout
    rcases hout with ⟨bound, hbound, hlt⟩ | ⟨bound, hbound, hlt⟩
    · obtain ⟨-, v, hv⟩ := Binary.exists_hasValue_of_lt hlt
      exact ((Binary.lt_iff hx hv).mp hlt).not_ge (hadmits.min_le bound hbound v hv)
    · obtain ⟨⟨v, hv⟩, -⟩ := Binary.exists_hasValue_of_lt hlt
      exact ((Binary.lt_iff hv hx).mp hlt).not_ge (hadmits.le_max bound hbound v hv)
  next hin =>
    rw [Bool.or_eq_true, Option.any_eq_true, Option.any_eq_true] at hin
    refine iff_of_true rfl ⟨fun bound hbound v hv => ?_, fun bound hbound v hv => ?_⟩
    · exact not_lt.mp fun hlt => hin (.inl ⟨bound, hbound, (Binary.lt_iff hx hv).mpr hlt⟩)
    · exact not_lt.mp fun hlt => hin (.inr ⟨bound, hbound, (Binary.lt_iff hv hx).mpr hlt⟩)

theorem number_eq_ok_iff {value : ParameterValue} {x : Double} :
    p.number value = .ok x ↔ value.number? = some x ∧ p.checkBounds x = .ok () := by
  rw [number]
  split
  next h => simp [h]
  next y h =>
    simp only [bind_eq_ok, h, Option.some.injEq]
    constructor
    · rintro ⟨⟨⟩, hbounds, hx⟩
      cases hx
      exact ⟨rfl, hbounds⟩
    · rintro ⟨rfl, hbounds⟩
      exact ⟨(), hbounds, rfl⟩

/-- What a parameter of whole numbers accepts. -/
theorem resolve_eq_ok_iff_of_int (hp : p.type = .int) {value : ParameterValue} {literal : Literal} :
    p.resolve value = .ok literal ↔ ∃ x, ∃ m : Int, value.number? = some x ∧ literal = .int m ∧
      x.HasValue ((m : ℚ) : WithTop ℚ) ∧ fitsSigned 32 m = true ∧ p.Admits m := by
  simp only [resolve, hp, bind_eq_ok, number_eq_ok_iff]
  constructor
  · rintro ⟨x, ⟨hx, hbounds⟩, h⟩
    split at h
    next m hm =>
      cases h
      obtain ⟨hvalue, hfits⟩ := wholeNumber?_eq_some_iff.mp hm
      rw [Binary.toInt?_eq_some_iff] at hvalue
      exact ⟨x, m, hx, rfl, hvalue, hfits, (checkBounds_eq_ok_iff hvalue).mp hbounds⟩
    next => cases h
  · rintro ⟨x, m, hx, rfl, hvalue, hfits, hadmits⟩
    have hm : wholeNumber? x = some m :=
      wholeNumber?_eq_some_iff.mpr ⟨Binary.toInt?_eq_some_iff.mpr hvalue, hfits⟩
    refine ⟨x, ⟨hx, (checkBounds_eq_ok_iff hvalue).mpr hadmits⟩, ?_⟩
    rw [hm]
    rfl

end Parameter

theorem fitsSigned_iff {n : Int} : fitsSigned 32 n = true ↔ -2147483648 ≤ n ∧ n ≤ 2147483647 := by
  have hpow : ((Nat.pow 2 (32 - 1) : Nat) : Int) = 2147483648 := rfl
  simp only [fitsSigned, hpow, Bool.and_eq_true, decide_eq_true_eq]
  omega

/-- The number nearest to a whole number has a value of 32 bits only if that is the whole number. -/
theorem ofInt_hasValue_iff {n m : Int} (hm : -2147483648 ≤ m ∧ m ≤ 2147483647) :
    (Binary.ofInt n : Double).HasValue ((m : ℚ) : WithTop ℚ) ↔ m = n := by
  have hbinade : BinaryFormat.double.binade = 4503599627370496 := rfl
  constructor
  · intro hvalue
    have hsmall : n.natAbs < BinaryFormat.double.binade := by
      by_contra hlarge
      have := Binary.binade_le_natAbs (Nat.le_of_not_lt hlarge) hvalue
      omega
    have hexact := Binary.ofInt_hasValue (n := n) (by omega)
    rw [← Binary.toInt?_eq_some_iff] at hvalue hexact
    exact Option.some.inj (hvalue.symm.trans hexact)
  · rintro rfl
    exact Binary.ofInt_hasValue (by omega)

/-- A parameter of whole numbers keeps what it accepts as it is. It accepts exactly the whole numbers
of 32 bits within its bounds, and of other numbers exactly those with such a value. -/
theorem whole_parameters_exact {p : Parameter} (hp : p.type = .int) :
    (∀ (n : Int) (literal : Literal), p.resolve (.int n) = .ok literal ↔
      literal = .int n ∧ (-2147483648 ≤ n ∧ n ≤ 2147483647) ∧ p.Admits n) ∧
    ∀ (x : Double) (literal : Literal), p.resolve (.float x) = .ok literal ↔
      ∃ m : Int, literal = .int m ∧ x.HasValue ((m : ℚ) : WithTop ℚ) ∧
        (-2147483648 ≤ m ∧ m ≤ 2147483647) ∧ p.Admits m := by
  simp only [p.resolve_eq_ok_iff_of_int hp, fitsSigned_iff, ParameterValue.number?,
    Option.some.injEq]
  refine ⟨fun n literal => ?_, fun x literal => ?_⟩
  · constructor
    · rintro ⟨x, m, rfl, rfl, hvalue, hfits, hadmits⟩
      obtain rfl := (ofInt_hasValue_iff hfits).mp hvalue
      exact ⟨rfl, hfits, hadmits⟩
    · rintro ⟨rfl, hfits, hadmits⟩
      exact ⟨_, n, rfl, rfl, (ofInt_hasValue_iff hfits).mpr rfl, hfits, hadmits⟩
  · constructor
    · rintro ⟨_, m, rfl, h⟩
      exact ⟨m, h⟩
    · rintro ⟨m, h⟩
      exact ⟨x, m, rfl, h⟩

/-- A number of steps, at least one and as many as 32 bits hold. -/
def steps : Parameter := .int "steps" 1 1 2147483647

/-- The largest number of steps is kept, and neither the next one nor one that is itself no number of
double precision is taken for another. -/
theorem steps_exact :
    steps.type = .int ∧ steps.resolve (.int 2147483647) = .ok (.int 2147483647) ∧
      ∀ literal, steps.resolve (.int 2147483648) ≠ .ok literal ∧
        steps.resolve (.int 9007199254740993) ≠ .ok literal := by
  have hexact := (whole_parameters_exact (p := steps) rfl).1
  have hadmits : steps.Admits ((2147483647 : Int) : ℚ) :=
    (Parameter.checkBounds_eq_ok_iff (Binary.ofInt_hasValue (by decide))).mp (by decide +kernel)
  refine ⟨rfl, (hexact _ _).mpr ⟨rfl, by decide, hadmits⟩, fun literal => ⟨fun h => ?_, fun h => ?_⟩⟩
  · exact absurd ((hexact _ _).mp h).2.1 (by decide)
  · exact absurd ((hexact _ _).mp h).2.1 (by decide)

end NodeShader
