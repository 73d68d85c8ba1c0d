import NodeShader.Number.Binary
import NodeShader.Text.Digit

/-!
# Colors written in hexadecimal

`hexColor` reads `#rgb` and `#rrggbb`; a channel byte `b` is the number `b / 255`. The text after
the `#` is measured and cut by its bytes in UTF-8.
-/

namespace NodeShader

/-- Why a text is not read as a color: it is not the text of one, or it would have been cut inside a
character. -/
inductive ColorFault where
  | malformed
  | cutCharacter
deriving DecidableEq, Repr

/-- The part of a text from one byte up to another one. -/
def byteSlice (text : String) (first last : Nat) : Except ColorFault String :=
  if first ≤ last ∧ String.Pos.Raw.IsValid text ⟨first⟩ ∧ String.Pos.Raw.IsValid text ⟨last⟩ then
    .ok (String.Pos.Raw.extract text ⟨first⟩ ⟨last⟩)
  else
    .error .cutCharacter

/-- What follows a plus sign, if there is one in front. -/
def afterPlus : List Char → List Char
  | '+' :: digits => digits
  | digits => digits

/-- The byte that a text writes in base sixteen. A plus sign may stand before the digits. -/
def channelByte (text : String) : Except ColorFault Nat :=
  let digits := afterPlus text.toList
  match ofDigits? 16 digits with
  | some byte => if digits.isEmpty || byte > 255 then .error .malformed else .ok byte
  | none => .error .malformed

/-- The byte that a digit stands for if it is written once; without a digit it stays zero. -/
def doubledByte : Option Char → Except ColorFault Nat
  | some digit => channelByte (.ofList [digit, digit])
  | none => .ok 0

/-- The bytes of the three channels: two digits for each of them, or a single one. -/
def channelBytes (hex : String) : Except ColorFault (Nat × Nat × Nat) :=
  match hex.utf8ByteSize with
  | 6 => do
    let r ← channelByte (← byteSlice hex 0 2)
    let g ← channelByte (← byteSlice hex 2 4)
    let b ← channelByte (← byteSlice hex 4 6)
    return (r, g, b)
  | 3 => do
    let r ← doubledByte hex.toList[0]?
    let g ← doubledByte hex.toList[1]?
    let b ← doubledByte hex.toList[2]?
    return (r, g, b)
  | _ => .error .malformed

/-- The component of a channel byte. -/
def byteComponent (byte : Nat) : Single := .nearest false byte 255

/-- Reads `#` and three or six hexadecimal digits; a single digit stands for itself twice. -/
def hexColor (text : String) : Except ColorFault (Single × Single × Single) :=
  match text.toList with
  | '#' :: digits =>
    if digits.all isHexDigit then do
      let (r, g, b) ← channelBytes (.ofList digits)
      return (byteComponent r, byteComponent g, byteComponent b)
    else
      .error .malformed
  | _ => .error .malformed

end NodeShader
