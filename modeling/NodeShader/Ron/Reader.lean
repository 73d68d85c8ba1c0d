import NodeShader.Ron.Basic
import NodeShader.Text.Digit

/-!
# Reading settings

`Ron.read?` reads a text that holds one value, between white space and comments.
-/

namespace NodeShader

namespace Ron

open TextParser

/-! ## Blanks -/

/-- The white space between the parts of a value. -/
def isSpace (c : Char) : Bool :=
  let n := c.toNat
  (9 ≤ n && n ≤ 13) || n == 0x20 || n == 0x85 || n == 0x200E || n == 0x200F || n == 0x2028 ||
    n == 0x2029

/-- The text after a block comment inside which `depth` further ones are open. -/
def skipComment? : (depth : Nat) → List Char → Option (List Char)
  | _, [] => none
  | depth, '/' :: '*' :: cs => skipComment? (depth + 1) cs
  | 0, '*' :: '/' :: cs => some cs
  | depth + 1, '*' :: '/' :: cs => skipComment? depth cs
  | depth, _ :: cs => skipComment? depth cs

/-- A comment up to the end of the line, or a block comment; these may be nested. -/
def comment : TextParser Unit := fun cs =>
  match cs with
  | '/' :: '/' :: cs => .done () (cs.dropWhile (· != '\n'))
  | '/' :: '*' :: cs =>
    match skipComment? 0 cs with
    | some cs => .done () cs
    | none => .abort
  | _ => .miss

/-- White space and comments. -/
def blank (limit : Nat) : TextParser Unit := do
  let _ ← run isSpace
  follow limit () fun _ => do
    comment
    let _ ← run isSpace
    return ()

/-! ## Words and scalars -/

/-- A word marked as raw. -/
def rawWord : TextParser String := do
  text "r#"
  return String.ofList (← run1 isRawChar)

/-- A word without a mark. What follows must not be part of a raw word. -/
def plainWord : TextParser String := do
  let cs ← run1 isWordChar
  absent (run1 isRawChar)
  let name := String.ofList cs
  if isPlain name then return name else miss

def anyWord : TextParser String := rawWord <|> plainWord

/-- An escape, after its backslash. -/
def escape : TextParser Unit :=
  choice [
    do
      let _ ← oneOf ["'", "\"", "\\", "n", "r", "t", "0"]
      return (),
    do
      text "x"
      let ds ← run1 isHexDigit
      if ds.length < 2 then miss,
    do
      text "u\x7b"
      let _ ← run1 isHexDigit
      text "\x7d"]

/-- A character of a quoted text that ends with `quote`. -/
def quotedChar (quote : Char) : TextParser Unit := fun cs =>
  match cs with
  | '\\' :: cs => escape cs
  | c :: cs => if c = quote then .miss else .done () cs
  | [] => .miss

/-- A quoted text. -/
def quoted (limit : Nat) : TextParser Unit := do
  let _ ← maybe (text "b")
  text "\""
  let _ ← many limit (quotedChar '"')
  text "\""

/-- The text after a raw text that ends with a quote and these marks. -/
def skipRaw? (marks : List Char) : List Char → Option (List Char)
  | [] => none
  | '"' :: cs =>
    match marks.isPrefixOf? cs with
    | some rest => some rest
    | none => skipRaw? marks cs
  | _ :: cs => skipRaw? marks cs

/-- A text without escapes. -/
def rawQuoted : TextParser Unit := do
  let _ ← maybe (text "b")
  text "r"
  let marks ← run (· == '#')
  text "\""
  fun cs =>
    match skipRaw? marks cs with
    | some rest => .done () rest
    | none => .miss

/-- A character between quotes. -/
def quotedSingle : TextParser Unit := do
  let _ ← maybe (text "b")
  text "'"
  quotedChar '\''
  text "'"

/-! ## Numbers -/

/-- The digits of whole numbers and their separators. -/
def isNumberChar (c : Char) : Bool := isHexDigit c || c == '_'

/-- A run of digits in a base, possibly separated, but not from the beginning. -/
def separatedDigits (base : Nat) : TextParser Nat := do
  let cs ← run1 isNumberChar
  if cs.head? = some '_' then miss else ofOption (ofDigits? base (cs.filter (· != '_')))

def wholeNumber : TextParser Nat := do
  match ← maybe (oneOf ["0b", "0o", "0x"]) with
  | some "0b" => separatedDigits 2
  | some "0o" => separatedDigits 8
  | some _ => separatedDigits 16
  | none => separatedDigits 10

/-- A number with a fraction or an exponent. -/
def fractional : TextParser Unit := do
  let whole ← run (fun c => c.isDigit || c == '_')
  let places ← maybe do
    text "."
    run (fun c => c.isDigit || c == '_')
  let _ ← maybe exponent
  if (whole ++ places.getD []).any Char.isDigit then return () else miss

/-- What cannot follow a number directly. -/
def numberEnd : TextParser Unit := absent (run1 (fun c => isRawChar c))

def anyNumber : TextParser Ron := do
  let sign ← maybe (oneOf ["+", "-"])
  choice [
    do
      let n ← wholeNumber
      numberEnd
      return .number (if sign = some "-" then -(n : Int) else n),
    do
      fractional
      numberEnd
      return .scalar]

/-! ## Values -/

/-- The parts of a list, with commas between them and possibly after the last, and the mark that
closes it. -/
def parts {α : Type} (limit : Nat) (part : TextParser α) (close : String) : TextParser (List α) := do
  let blank := blank limit
  let comma : TextParser Unit := do
    text ","
    blank
  let spaced : TextParser α := do
    let value ← part
    blank
    return value
  blank
  let values ← separated limit spaced comma
  if !values.isEmpty then
    let _ ← maybe comma
  text close
  return values

/-- Two parts with a colon between them. -/
def pair {α β : Type} (limit : Nat) (first : TextParser α) (second : TextParser β) : TextParser (α × β) := do
  let a ← first
  blank limit
  text ":"
  blank limit
  return (a, ← second)

/-- What stands in parentheses: fields, or else values. -/
def parenthesized (limit : Nat) (value : TextParser Ron) (name : Option String) : TextParser Ron := do
  text "("
  choice [
    do return .record name (← parts limit (pair limit anyWord value) ")"),
    do return .tuple name (← parts limit value ")")]

/-- A value that begins with a word. -/
def worded (limit : Nat) (value : TextParser Ron) : TextParser Ron := do
  let name ← anyWord
  let content ← maybe do
    blank limit
    parenthesized limit value (some name)
  return content.getD (.word name)

/-- A truth value. -/
def truth : TextParser Ron := do
  match ← plainWord with
  | "true" => return .bool true
  | "false" => return .bool false
  | _ => miss

/-- A text or a character. -/
def scalarText (limit : Nat) : TextParser Ron := do
  choice [quoted limit, rawQuoted, quotedSingle]
  return .scalar

/-- A value in which fewer than `depth` others enclose each other. -/
def value (limit : Nat) : (depth : Nat) → TextParser Ron
  | 0 => miss
  | depth + 1 =>
    let inner := value limit depth
    choice [
      scalarText limit,
      truth,
      worded limit inner,
      anyNumber,
      parenthesized limit inner none,
      do
        text "["
        return .list (← parts limit inner "]"),
      do
        text "\x7b"
        return .map (← parts limit (pair limit inner inner) "\x7d")]

/-- The value of a text. -/
def read? (source : String) : Option Ron :=
  let cs := source.toList
  let limit := cs.length + 1
  let document : TextParser Ron := do
    blank limit
    let v ← value limit limit
    blank limit
    atEnd
    return v
  match document cs with
  | .done v _ => some v
  | _ => none

end Ron

end NodeShader
