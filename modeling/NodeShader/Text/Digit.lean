import NodeShader.Text.Parser

/-!
# Digits

The values of digits up to base sixteen, and parsers for runs of decimal digits.
-/

namespace NodeShader

/-- The value of a hexadecimal digit of either case. -/
def hexDigit? (c : Char) : Option Nat :=
  if '0' ≤ c ∧ c ≤ '9' then some (c.toNat - '0'.toNat)
  else if 'a' ≤ c ∧ c ≤ 'f' then some (c.toNat - 'a'.toNat + 10)
  else if 'A' ≤ c ∧ c ≤ 'F' then some (c.toNat - 'A'.toNat + 10)
  else none

def isHexDigit (c : Char) : Bool := (hexDigit? c).isSome

/-- The whole number that a list of digits writes in a base, if all of them belong to it. -/
def ofDigits? (base : Nat) (cs : List Char) : Option Nat :=
  match cs.mapM hexDigit? with
  | some values =>
    if values.all (· < base) then some (values.foldl (fun n value => base * n + value) 0) else none
  | none => none

namespace TextParser

/-- A run of decimal digits. -/
def digits : TextParser (List Char) := run1 Char.isDigit

/-- The exponent of a number. -/
def exponent : TextParser Unit := do
  let _ ← oneOf ["e", "E"]
  let _ ← maybe (oneOf ["+", "-"])
  let _ ← digits
  return ()

/-- The value that there is, or else a miss. -/
def ofOption {α : Type} : Option α → TextParser α
  | some value => return value
  | none => miss

end TextParser

end NodeShader
