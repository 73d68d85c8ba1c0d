/-!
# Data types of ports

The types of value that flow through a port, their names, and which of them may
be joined by an edge.
-/

namespace NodeShader

/-- A type of value that flows through a port. A color is a `vec3` in the shader. -/
inductive DataType where
  | float
  | int
  | vec2
  | vec3
  | vec4
  | color
  | sampler2D
deriving DecidableEq, Repr

namespace DataType

def all : List DataType := [float, int, vec2, vec3, vec4, color, sampler2D]

def name : DataType → String
  | float => "float"
  | int => "int"
  | vec2 => "vec2"
  | vec3 => "vec3"
  | vec4 => "vec4"
  | color => "color"
  | sampler2D => "sampler2D"

/-- The type of this name. -/
def ofName? (name : String) : Option DataType := all.find? (fun t => t.name == name)

/-- The name of the type in shader text. -/
def glslName : DataType → String
  | color => "vec3"
  | type => type.name

/-- The number of scalar components. -/
def components : DataType → Nat
  | float | int => 1
  | vec2 => 2
  | vec3 | color => 3
  | vec4 => 4
  | sampler2D => 0

/-- Types of one class may be joined: `color` and `vec3` share one, every other type
is alone in its own. -/
def connectionClass : DataType → DataType
  | color => vec3
  | type => type

/-- Whether an output of type `source` may feed an input of type `target`. Nothing is
converted or broadcast. -/
def connectsTo (source target : DataType) : Bool :=
  source.connectionClass == target.connectionClass

end DataType

end NodeShader
