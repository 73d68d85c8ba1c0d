import NodeShader.DataType
import NodeShader.Number.Shortest

/-!
# Literals

A `Literal` is a typed constant ready to be written into shader text:
`Literal.toGlsl` writes it, and `floatText` writes a number so that it is always
read as a floating-point literal.
-/

namespace NodeShader

/-- A typed constant. `select` is the chosen option of a select parameter, an identifier
or swizzle. -/
inductive Literal where
  | float (x : Single)
  | int (n : Int)
  | vec2 (x y : Single)
  | vec3 (x y z : Single)
  | vec4 (x y z w : Single)
  | color (r g b : Single)
  | select (option : String)
deriving DecidableEq, Repr

/-- The shortest text of a number, with `.0` after it where it has no point. -/
def floatText (x : Single) : String :=
  let text := x.toText
  if text.toList.contains '.' then text else text ++ ".0"

/-- A constructor call on numbers. -/
def constructorText (name : String) (components : List Single) : String :=
  name ++ "(" ++ ", ".intercalate (components.map floatText) ++ ")"

namespace Literal

/-- The constant in shader text. -/
def toGlsl : Literal → String
  | float x => floatText x
  | int n => toString n
  | vec2 x y => constructorText "vec2" [x, y]
  | vec3 x y z => constructorText "vec3" [x, y, z]
  | vec4 x y z w => constructorText "vec4" [x, y, z, w]
  | color r g b => constructorText "vec3" [r, g, b]
  | select option => option

/-- The type of the constant as the value of a port; an option has none. -/
def dataType? : Literal → Option DataType
  | float _ => some .float
  | int _ => some .int
  | vec2 .. => some .vec2
  | vec3 .. => some .vec3
  | vec4 .. => some .vec4
  | color .. => some .color
  | select _ => none

end Literal

end NodeShader
