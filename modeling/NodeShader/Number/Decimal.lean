import NodeShader.Number.Binary

/-!
# Decimal numbers and their text

A `Decimal` is a signed whole number times a power of ten. `Decimal.toText`
writes it with a point and without an exponent, `Decimal.ofText?` reads such a
text, and `Decimal.toBinary` rounds it to the nearest number of a format. Whole
numbers are kept as they are, as far as they fit a word of 32 or 64 bits.
-/

namespace NodeShader

/-- The number `± coefficient * 10 ^ exponent`; zero keeps its sign. -/
structure Decimal where
  negative : Bool
  coefficient : Nat
  exponent : Int
deriving DecidableEq, Repr

/-- The decimal digits of a whole number. -/
def decimalDigits (n : Nat) : List Char := Nat.toDigits 10 n

/-- The whole number that a list of decimal digits writes. -/
def ofDecimalDigits (digits : List Char) : Nat :=
  digits.foldl (fun n c => 10 * n + (c.toNat - '0'.toNat)) 0

namespace Decimal

/-- The magnitude as a fraction: numerator and denominator. -/
def fraction (d : Decimal) : Nat × Nat :=
  match d.exponent with
  | .ofNat e => (d.coefficient * Nat.pow 10 e, 1)
  | .negSucc e => (d.coefficient, Nat.pow 10 (e + 1))

/-- Digits with a point before the last `places` of them. -/
def pointed (digits : List Char) (places : Nat) : List Char :=
  let padded := List.replicate (places + 1 - digits.length) '0' ++ digits
  let whole := padded.length - places
  padded.take whole ++ '.' :: padded.drop whole

/-- The text without an exponent: a point only where there are places after it. -/
def toText (d : Decimal) : String :=
  let digits := decimalDigits d.coefficient
  let magnitude :=
    match d.exponent with
    | .ofNat e => if d.coefficient = 0 then digits else digits ++ List.replicate e '0'
    | .negSucc e => pointed digits (e + 1)
  String.ofList (if d.negative then '-' :: magnitude else magnitude)

/-- Reads an optional minus, digits, and optionally a point and digits. -/
def ofText? (text : String) : Option Decimal :=
  let (negative, chars) :=
    match text.toList with
    | '-' :: rest => (true, rest)
    | chars => (false, chars)
  let whole := chars.takeWhile Char.isDigit
  match whole, chars.dropWhile Char.isDigit with
  | [], _ => none
  | _, [] => some ⟨negative, ofDecimalDigits whole, 0⟩
  | _, '.' :: places =>
    if places ≠ [] ∧ places.all Char.isDigit then
      some ⟨negative, ofDecimalDigits (whole ++ places), -(places.length : Int)⟩
    else
      none
  | _, _ => none

/-- The nearest number of a format. A magnitude of at least `10 ^ binades`
overflows and one below `10 ^ -scale` is zero, so that no power of ten outgrows
the format. -/
def toBinary {f : BinaryFormat} (d : Decimal) : Binary f :=
  let magnitude : Int := (decimalDigits d.coefficient).length + d.exponent
  if d.coefficient = 0 ∨ magnitude ≤ -(f.scale : Int) then
    .ofRank d.negative 0
  else if (f.binades : Int) < magnitude then
    .infinite d.negative
  else
    let (num, den) := d.fraction
    .nearest d.negative num den

end Decimal

/-! ## Ranges of whole numbers -/

/-- Whether a number fits a signed word of `bits` bits. -/
def fitsSigned (bits : Nat) (n : Int) : Bool :=
  let bound : Int := Nat.pow 2 (bits - 1)
  n < bound && -bound ≤ n

/-- Whether a number fits an unsigned word of `bits` bits. -/
def fitsUnsigned (bits : Nat) (n : Int) : Bool := 0 ≤ n && n < Nat.pow 2 bits

end NodeShader
