import NodeShader.Number.Decimal
import NodeShader.Text.Character
import NodeShader.Text.Digit

/-!
# Words, blanks and numbers of shader text
-/

namespace NodeShader.Glsl

open TextParser

/-- The characters of names. -/
def isNameChar (c : Char) : Bool := isAlphanumeric c || c == '_'

/-- A word: a run of name characters. -/
def word : TextParser String := do return String.ofList (← run1 isNameChar)

/-- A name: a word that does not begin with a digit. Keywords are names as well. -/
def ident : TextParser String := do
  let cs ← run1 isNameChar
  match cs with
  | [] => miss
  | c :: _ => if c.isDigit then miss else return String.ofList cs

/-- The given word, whole. -/
def keyword (s : String) : TextParser Unit := do
  let w ← word
  if w = s then return () else miss

/-- One of the given words. -/
def keywordOf (words : List String) : TextParser String := do
  let w ← word
  if words.contains w then return w else miss

/-! ## Blanks and comments -/

/-- The text after leading white space; a backslash before a line break counts as white space. -/
def skipSpace : List Char → List Char
  | ' ' :: cs | '\t' :: cs | '\r' :: cs | '\n' :: cs => skipSpace cs
  | '\\' :: '\n' :: cs => skipSpace cs
  | cs => cs

/-- The text after the end of a line. A backslash before a line break continues the line. -/
def skipLine : List Char → List Char
  | [] => []
  | '\\' :: '\n' :: cs => skipLine cs
  | '\n' :: cs => cs
  | '\r' :: '\n' :: cs => cs
  | _ :: cs => skipLine cs

/-- The text after the end of a block comment. -/
def skipBlock? : List Char → Option (List Char)
  | [] => none
  | '*' :: '/' :: cs => some cs
  | _ :: cs => skipBlock? cs

/-- A comment, and the white space after it. A block comment that is not closed aborts. -/
def comment : TextParser Unit := fun cs =>
  match cs with
  | '/' :: '/' :: cs => .done () (skipSpace (skipLine cs))
  | '/' :: '*' :: cs =>
    match skipBlock? cs with
    | some cs => .done () (skipSpace cs)
    | none => .abort
  | _ => .miss

/-- White space and comments, at most `limit` of these. -/
def blank (limit : Nat) : TextParser Unit := fun cs =>
  follow limit () (fun _ => comment) (skipSpace cs)

/-! ## Numbers -/

/-- A run of decimal digits that does not begin with zero. -/
def nonzeroDigits : TextParser (List Char) := do
  let ds ← digits
  if ds.head? = some '0' then miss else return ds

/-- Digits with a point, or with an exponent, or with both. -/
def decimalPart : TextParser Unit :=
  choice [
    do
      text "."
      let _ ← digits
      let _ ← maybe exponent
      return (),
    do
      let _ ← digits
      text "."
      let _ ← run Char.isDigit
      let _ ← maybe exponent
      return (),
    do
      let _ ← nonzeroDigits
      exponent]

/-- A number of single precision. -/
def floatConstant : TextParser Unit := do
  decimalPart
  let _ ← maybe (keywordOf ["f", "F"])
  absent (keywordOf ["lf", "LF"])

/-- A number of double precision. -/
def doubleConstant : TextParser Unit := do
  decimalPart
  absent (keywordOf ["f", "F"])
  let _ ← maybe (keywordOf ["lf", "LF"])
  return ()

/-- A number in a base whose digits reach up to the mark `u` or to what cannot be part of a
number. -/
def wholeRun (base : Nat) : TextParser Nat := do
  let ds ← run1 (fun c => isAlphanumeric c && c != 'u' && c != 'U')
  ofOption (ofDigits? base ds)

/-- An octal number; it begins with zero. -/
def octal : TextParser Nat := fun cs =>
  match cs with
  | '0' :: _ => wholeRun 8 cs
  | _ => .miss

def hexadecimal : TextParser Nat := do
  let _ ← oneOf ["0x", "0X"]
  wholeRun 16

def decimal : TextParser Nat := do return ofDecimalDigits (← nonzeroDigits)

/-- A whole number before its suffix. -/
def integer : TextParser Nat := octal <|> hexadecimal <|> decimal

/-- Aborts where a number does not fit 32 bits. -/
def fits (n : Nat) : TextParser Unit := if fitsUnsigned 32 n then return () else abort

/-- A whole number with the mark of an unsigned one. -/
def unsignedConstant : TextParser Unit := do
  let n ← integer
  let _ ← oneOf ["u", "U"]
  fits n

/-- A whole number. -/
def integerConstant : TextParser Unit := do
  let n ← integer
  fits n

end NodeShader.Glsl
