import NodeShader.Number.Decimal

/-!
# The shortest decimal of a binary number

Every finite binary number is a finite decimal: magnitude `r` of a format is
`units r * 5 ^ scale` over `10 ^ scale`. `Binary.cut` drops digits from the end of
that decimal, as many as it can while the result still rounds to the number; of
two results of one length the nearer is taken, and the larger of two equally
near.
-/

namespace NodeShader

namespace Binary

variable {f : BinaryFormat}

/-- The coefficient over `10 ^ scale` that magnitude `r` is exactly. -/
def exactCoefficient (f : BinaryFormat) (r : Nat) : Nat := f.units r * Nat.pow 5 f.scale

/-- Whether `coefficient * 10 ^ (places - scale)` rounds to magnitude `r`. -/
def readsBack (f : BinaryFormat) (r coefficient places : Nat) : Bool :=
  nearestRank f (coefficient * Nat.pow 10 places) (Nat.pow 10 f.scale) == r

/-- Drops at most `places` digits from the exact coefficient of magnitude `r`:
the shorter coefficient, and the number of digits dropped. -/
def cut (f : BinaryFormat) (r : Nat) : Nat → Nat × Nat
  | 0 => (exactCoefficient f r, 0)
  | places + 1 =>
    let unit := Nat.pow 10 (places + 1)
    let below := exactCoefficient f r / unit
    let above := below + 1
    let belowFits := readsBack f r below (places + 1)
    let aboveFits := readsBack f r above (places + 1)
    let nearerAbove := unit ≤ 2 * (exactCoefficient f r % unit)
    if aboveFits && (!belowFits || nearerAbove) then (above, places + 1)
    else if belowFits then (below, places + 1)
    else cut f r places

/-- The shortest decimal that rounds to the number of this sign and rank. -/
def shortest (f : BinaryFormat) (negative : Bool) (r : Nat) : Decimal :=
  if r = 0 then
    ⟨negative, 0, 0⟩
  else
    let digits := (decimalDigits (exactCoefficient f r)).length
    let (coefficient, places) := cut f r digits
    ⟨negative, coefficient, places - (f.scale : Int)⟩

/-- The shortest decimal of a finite number. -/
def toDecimal? : Binary f → Option Decimal
  | .finite negative rank => some (shortest f negative rank)
  | _ => none

/-- The shortest text that reads back, without an exponent; `inf`, `-inf` and `NaN`
stand for what is not finite. -/
def toText : Binary f → String
  | .finite negative rank => (shortest f negative rank).toText
  | .infinite negative => if negative then "-inf" else "inf"
  | .nan => "NaN"

end Binary

end NodeShader
