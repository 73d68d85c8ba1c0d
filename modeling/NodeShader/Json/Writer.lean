import NodeShader.Json.Basic

/-!
# Writing JSON text

`Json.compress` writes a value on one line, `Json.pretty` with an indentation of two
spaces.
-/

namespace NodeShader

namespace Json

/-- Two lower-case hexadecimal digits. -/
def hexByte (n : Nat) : String := String.ofList [Nat.digitChar (n / 16), Nat.digitChar (n % 16)]

/-- A character inside a string. -/
def escapeChar (c : Char) : String :=
  if c = '"' then "\\\""
  else if c = '\\' then "\\\\"
  else if c = '\n' then "\\n"
  else if c = '\r' then "\\r"
  else if c = '\t' then "\\t"
  else if c = '\x08' then "\\b"
  else if c = '\x0c' then "\\f"
  else if c.toNat < 0x20 then "\\u00" ++ hexByte c.toNat
  else c.toString

/-- A string with its quotes. -/
def quote (s : String) : String := "\"" ++ String.join (s.toList.map escapeChar) ++ "\""

/-- A number with a fraction: positional while its point stands near its digits, with an
exponent otherwise, and never without a point or an exponent. -/
def realText (d : Decimal) : String :=
  let sign := if d.negative then "-" else ""
  let digits := decimalDigits d.coefficient
  let point := digits.length + d.exponent
  if d.coefficient = 0 then
    sign ++ "0.0"
  else if -5 < point ∧ point ≤ 16 then
    let text := d.toText
    if text.toList.contains '.' then text else text ++ ".0"
  else
    let head := String.ofList (digits.take 1)
    let tail := if digits.length = 1 then "" else "." ++ String.ofList (digits.drop 1)
    sign ++ head ++ tail ++ "e" ++ toString (point - 1)

/-- A line break and an indentation, or nothing on one line. -/
def lineBreak : Option Nat → String
  | some depth => "\n" ++ String.ofList (List.replicate (2 * depth) ' ')
  | none => ""

/-- Parts between brackets, each on a line of its own where there are lines. -/
def bracketed (left right : String) (depth : Option Nat) (parts : List String) : String :=
  if parts.isEmpty then
    left ++ right
  else
    let separator := "," ++ lineBreak (depth.map (· + 1))
    left ++ lineBreak (depth.map (· + 1)) ++ separator.intercalate parts ++ lineBreak depth ++ right

mutual

/-- The text of a value; `depth` is its indentation, if it is written on several lines. What
has no value is written as null. -/
def write (depth : Option Nat) : Json → String
  | .null | .unreadable | .broken => "null"
  | .bool true => "true"
  | .bool false => "false"
  | .int n => toString n
  | .real d => realText d
  | .text s => quote s
  | .list items => bracketed "[" "]" depth (writeItems (depth.map (· + 1)) items)
  | .record fields => bracketed "\x7b" "\x7d" depth (writeFields (depth.map (· + 1)) fields)

def writeItems (depth : Option Nat) : List Json → List String
  | [] => []
  | v :: rest => write depth v :: writeItems depth rest

def writeFields (depth : Option Nat) : List (String × Json) → List String
  | [] => []
  | (name, v) :: rest =>
    let separator := if depth.isSome then ": " else ":"
    (quote name ++ separator ++ write depth v) :: writeFields depth rest

end

/-- The text of a value on one line. -/
def compress (v : Json) : String := write none v

/-- The text of a value on several lines. -/
def pretty (v : Json) : String := write (some 0) v

end Json

end NodeShader
