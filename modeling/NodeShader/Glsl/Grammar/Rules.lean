import NodeShader.Glsl.Lexical
import NodeShader.Glsl.Syntax

/-!
# The recursive parts of the grammar

The grammar of shader text is written against a record of parsers for the parts that it
uses recursively. Every use follows a character that has been read, so a record for texts of
some length is built from one for shorter texts.
-/

namespace NodeShader.Glsl

/-- Parsers for the parts of the grammar that refer to each other, and a bound for
repetitions. -/
structure Rules where
  limit : Nat
  expr : TextParser Expr
  assignment : TextParser Expr
  conditional : TextParser Expr
  unary : TextParser Expr
  initializer : TextParser Initializer
  typeSpec : TextParser TypeSpec
  stmt : TextParser Stmt
  external : TextParser External

namespace Rules

/-- The rules that read nothing. -/
def empty : Rules where
  limit := 0
  expr := TextParser.miss
  assignment := TextParser.miss
  conditional := TextParser.miss
  unary := TextParser.miss
  initializer := TextParser.miss
  typeSpec := TextParser.miss
  stmt := TextParser.miss
  external := TextParser.miss

/-- White space and comments. -/
def blank (r : Rules) : TextParser Unit := Glsl.blank r.limit

/-- A mark between blanks. -/
def mark (r : Rules) (s : String) : TextParser Unit := do
  r.blank
  TextParser.text s
  r.blank

/-- A part, and the blanks after it. -/
def before {α : Type} (r : Rules) (p : TextParser α) : TextParser α := do
  let value ← p
  r.blank
  return value

/-- A part, and the blanks in front of it. -/
def after {α : Type} (r : Rules) (p : TextParser α) : TextParser α := do
  r.blank
  p

end Rules

end NodeShader.Glsl
