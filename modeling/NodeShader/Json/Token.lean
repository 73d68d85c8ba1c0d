import NodeShader.Json.Basic
import NodeShader.Number.Decimal
import NodeShader.Text.Digit

/-!
# Tokens of JSON text

`Json.tokens` splits a text into tokens. It ends with `Token.offence` where no token
begins.
-/

namespace NodeShader

namespace Json

/-- A token. A `string` without content holds half of a surrogate pair. -/
inductive Token where
  | openList
  | closeList
  | openRecord
  | closeRecord
  | comma
  | colon
  | string (content : Option String)
  | scalar (value : Json)
  | offence

/-- The four hexadecimal digits of an escaped code unit. -/
def codeUnit? (a b c d : Char) : Option Nat := do
  let digits ← [a, b, c, d].mapM hexDigit?
  return digits.foldl (fun n digit => 16 * n + digit) 0

/-- The character that a short escape stands for. -/
def shortEscape? : Char → Option Char
  | '"' => some '"'
  | '\\' => some '\\'
  | '/' => some '/'
  | 'b' => some '\x08'
  | 'f' => some '\x0c'
  | 'n' => some '\n'
  | 'r' => some '\r'
  | 't' => some '\t'
  | _ => none

/-- The content of a string so far, newest character first, and the first half of a surrogate
pair that waits for its second. The content is lost where a half stands alone. -/
structure Content where
  chars : Option (List Char)
  high : Option Nat

namespace Content

def push (content : Content) (c : Char) : Content :=
  match content.high with
  | none => ⟨content.chars.map (c :: ·), none⟩
  | some _ => ⟨none, none⟩

/-- Appends an escaped code unit. -/
def pushUnit (content : Content) (unit : Nat) : Content :=
  if 0xD800 ≤ unit ∧ unit < 0xDC00 then
    ⟨if content.high.isSome then none else content.chars, some unit⟩
  else if 0xDC00 ≤ unit ∧ unit < 0xE000 then
    match content.high with
    | some high =>
      let c := Char.ofNat (0x10000 + (high - 0xD800) * 0x400 + (unit - 0xDC00))
      ⟨content.chars.map (c :: ·), none⟩
    | none => ⟨none, none⟩
  else
    content.push (Char.ofNat unit)

/-- The finished content. -/
def toText? (content : Content) : Option String :=
  if content.high.isSome then none
  else content.chars.map fun cs => String.ofList cs.reverse

end Content

/-- The content of a string, and the text after its closing quote. -/
def scanString (content : Content) : List Char → Option (Option String × List Char)
  | [] => none
  | '"' :: rest => some (content.toText?, rest)
  | '\\' :: 'u' :: a :: b :: c :: d :: rest =>
    match codeUnit? a b c d with
    | none => none
    | some unit => scanString (content.pushUnit unit) rest
  | '\\' :: c :: rest =>
    match shortEscape? c with
    | none => none
    | some c => scanString (content.push c) rest
  | c :: rest => if c.toNat < 0x20 then none else scanString (content.push c) rest

theorem length_scanString {content : Content} {result : Option String} {cs rest : List Char}
    (h : scanString content cs = some (result, rest)) : rest.length < cs.length := by
  fun_induction scanString content cs <;> simp_all <;> omega

/-- A mark of the grammar's punctuation. -/
def mark? : Char → Option Token
  | '[' => some .openList
  | ']' => some .closeList
  | '\x7b' => some .openRecord
  | '\x7d' => some .closeRecord
  | ',' => some .comma
  | ':' => some .colon
  | _ => none

/-- The characters that JSON allows between tokens. -/
def isSpace (c : Char) : Bool := c == ' ' || c == '\t' || c == '\n' || c == '\r'

/-- The characters of numerals and of the words `true`, `false` and `null`. -/
def isWordChar (c : Char) : Bool := c.isAlphanum || c == '+' || c == '-' || c == '.'

/-- Splits leading decimal digits off; there has to be one. -/
def digits? (cs : List Char) : Option (List Char × List Char) :=
  match cs.takeWhile Char.isDigit with
  | [] => none
  | digits => some (digits, cs.dropWhile Char.isDigit)

/-- The exponent that ends a numeral. -/
def exponent? : List Char → Option Int
  | [] => some 0
  | e :: cs =>
    if e = 'e' ∨ e = 'E' then
      let (negative, cs) :=
        match cs with
        | '-' :: cs => (true, cs)
        | '+' :: cs => (false, cs)
        | _ => (false, cs)
      match digits? cs with
      | some (digits, []) =>
        let n : Int := ofDecimalDigits digits
        some (if negative then -n else n)
      | _ => none
    else
      none

/-- A number that is no integer, unless it is too large to be represented. -/
def realOrUnreadable (d : Decimal) : Json :=
  if (d.toBinary : Double).isFinite then .real d else .unreadable

/-- The value of a numeral. Minus zero is not an integer. -/
def numeral? (word : List Char) : Option Json := do
  let (negative, cs) :=
    match word with
    | '-' :: cs => (true, cs)
    | _ => (false, word)
  let (whole, rest) ← digits? cs
  if whole.length ≠ 1 ∧ whole.head? = some '0' then none
  match rest with
  | [] =>
    let magnitude := ofDecimalDigits whole
    let n : Int := if negative then -(magnitude : Int) else magnitude
    if (negative && magnitude == 0) || !(fitsSigned 64 n || fitsUnsigned 64 n) then
      return realOrUnreadable ⟨negative, magnitude, 0⟩
    else
      return .int n
  | '.' :: rest =>
    let (places, rest) ← digits? rest
    let exponent ← exponent? rest
    return realOrUnreadable ⟨negative, ofDecimalDigits (whole ++ places), exponent - places.length⟩
  | _ =>
    let exponent ← exponent? rest
    return realOrUnreadable ⟨negative, ofDecimalDigits whole, exponent⟩

/-- The value that a word writes. -/
def word? (word : List Char) : Option Json :=
  if word = "null".toList then some .null
  else if word = "true".toList then some (.bool true)
  else if word = "false".toList then some (.bool false)
  else numeral? word

/-- The tokens of a text. -/
def tokens : List Char → List Token
  | [] => []
  | c :: cs =>
    if isSpace c then tokens cs
    else if c = '"' then
      match h : scanString ⟨some [], none⟩ cs with
      | none => [.offence]
      | some (content, rest) =>
        have := length_scanString h
        .string content :: tokens rest
    else
      match mark? c with
      | some token => token :: tokens cs
      | none =>
        match word? (c :: cs.takeWhile isWordChar) with
        | some value => .scalar value :: tokens (cs.dropWhile isWordChar)
        | none => [.offence]
termination_by cs => cs.length
decreasing_by
  all_goals simp_wf
  · omega
  · have := (List.dropWhile_sublist isWordChar (l := cs)).length_le
    omega

end Json

end NodeShader
