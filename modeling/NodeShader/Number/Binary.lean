/-!
# Binary floating-point numbers

A binary number is kept exactly: its sign and its rank, the number of
magnitudes of its format that lie below it. Magnitude `r` counts
`BinaryFormat.units f r` of the format's least positive number `2 ^ -scale`, so
every operation here is arithmetic on natural numbers.

`Binary.nearest` rounds a fraction to the nearest number of a format, a tie
going to the even neighbour; conversions between formats, from integers and
from decimals all pass through it.
-/

namespace NodeShader

/-- A binary interchange format. `fraction` is the number of bits stored after
the leading one, `2 ^ -scale` the least positive number, and `binades` the number
of exponents of normal numbers. -/
structure BinaryFormat where
  fraction : Nat
  scale : Nat
  binades : Nat
deriving DecidableEq, Repr

namespace BinaryFormat

/-- Single precision, 32 bits. -/
def single : BinaryFormat := ⟨23, 149, 254⟩

/-- Double precision, 64 bits. -/
def double : BinaryFormat := ⟨52, 1074, 2046⟩

/-- The number of magnitudes in one binade. -/
def binade (f : BinaryFormat) : Nat := Nat.pow 2 f.fraction

/-- The number of finite magnitudes. -/
def finiteCount (f : BinaryFormat) : Nat := (f.binades + 1) * f.binade

/-- How often the last place of magnitude `r` doubles the least positive number. -/
def shift (f : BinaryFormat) (r : Nat) : Nat := r / f.binade - 1

/-- The whole number of last places in magnitude `r`. -/
def significand (f : BinaryFormat) (r : Nat) : Nat :=
  if r < f.binade then r else f.binade + r % f.binade

/-- Magnitude `r`, counted in the least positive number. -/
def units (f : BinaryFormat) (r : Nat) : Nat := f.significand r * Nat.pow 2 (f.shift r)

end BinaryFormat

/-- The whole number nearest to `num / den`, a tie going to the even neighbour. -/
def roundHalfEven (num den : Nat) : Nat :=
  let quotient := num / den
  let twice := 2 * (num % den)
  if twice < den then quotient
  else if den < twice then quotient + 1
  else if quotient % 2 = 0 then quotient
  else quotient + 1

/-- A number of the format `f`. -/
inductive Binary (f : BinaryFormat) where
  | finite (negative : Bool) (rank : Fin f.finiteCount)
  | infinite (negative : Bool)
  | nan
deriving DecidableEq, Repr

abbrev Single := Binary .single

abbrev Double := Binary .double

namespace Binary

variable {f : BinaryFormat}

/-- The number of rank `r`; a rank past the last finite magnitude overflows. -/
def ofRank (negative : Bool) (r : Nat) : Binary f :=
  if h : r < f.finiteCount then .finite negative ⟨r, h⟩ else .infinite negative

/-- The rank of the magnitude nearest to `num / den`. -/
def nearestRank (f : BinaryFormat) (num den : Nat) : Nat :=
  let scaled := num * Nat.pow 2 f.scale
  let shift := (scaled / den).log2 - f.fraction
  roundHalfEven scaled (den * Nat.pow 2 shift) + shift * f.binade

/-- The number nearest to `num / den`, with the given sign. -/
def nearest (negative : Bool) (num den : Nat) : Binary f :=
  ofRank negative (nearestRank f num den)

/-- The number nearest to a whole number. -/
def ofInt (n : Int) : Binary f := nearest (decide (n < 0)) n.natAbs 1

/-- The number whose encoding, read as a whole number, is `bits`. -/
def ofBits (bits : Nat) : Binary f :=
  let signBit := (f.binades + 2) * f.binade
  let rank := bits % signBit
  if rank ≤ f.finiteCount then ofRank (decide (signBit ≤ bits)) rank else .nan

/-- The nearest number of another format. -/
def convert {g : BinaryFormat} : Binary f → Binary g
  | .finite negative rank => nearest negative (f.units rank) (Nat.pow 2 f.scale)
  | .infinite negative => .infinite negative
  | .nan => .nan

def isFinite : Binary f → Bool
  | .finite .. => true
  | _ => false

/-- The whole number that a number equals, if it equals one. -/
def toInt? : Binary f → Option Int
  | .finite negative rank =>
    let units := f.units rank
    if units % Nat.pow 2 f.scale = 0 then
      let whole : Int := (units / Nat.pow 2 f.scale : Nat)
      some (if negative then -whole else whole)
    else
      none
  | _ => none

/-- The place of a number in the order of its format; both zeros share one. -/
def position? : Binary f → Option Int
  | .finite negative rank => some (if negative then -(rank.val : Int) else rank.val)
  | .infinite negative => some (if negative then -(f.finiteCount : Int) else f.finiteCount)
  | .nan => none

/-- Strictly less; false whenever a side is not a number. -/
def lt (a b : Binary f) : Bool :=
  match a.position?, b.position? with
  | some x, some y => decide (x < y)
  | _, _ => false

end Binary

end NodeShader
