import NodeShader.Literal

/-!
# Parameters of node types

A node type declares parameters; a node gives them loosely typed values. Here are
both, and the reasons for which a value is refused.
-/

namespace NodeShader

/-- A value as a graph stores it. No parameter accepts a `bool`. -/
inductive ParameterValue where
  | bool (b : Bool)
  | int (n : Int)
  | float (x : Double)
  | vector (components : List Double)
  | text (s : String)
deriving DecidableEq, Repr

/-- The word for a value's kind. -/
def ParameterValue.kindName : ParameterValue → String
  | bool _ => "bool"
  | int _ => "int"
  | float _ => "float"
  | vector _ => "vector"
  | text _ => "text"

/-- The declared type of a parameter. -/
inductive ParameterType where
  | float
  | int
  | vec2
  | vec3
  | vec4
  | color
  | select
deriving DecidableEq, Repr

namespace ParameterType

def all : List ParameterType := [float, int, vec2, vec3, vec4, color, select]

def name : ParameterType → String
  | float => "float"
  | int => "int"
  | vec2 => "vec2"
  | vec3 => "vec3"
  | vec4 => "vec4"
  | color => "color"
  | select => "select"

/-- The type of this name. -/
def ofName? (name : String) : Option ParameterType := all.find? (fun t => t.name == name)

end ParameterType

/-- A parameter declared by a node type: the bounds are inclusive and hold for every
numeric component, the options are those of a `select`. -/
structure Parameter where
  name : String
  type : ParameterType
  default : Literal
  min : Option Double := none
  max : Option Double := none
  options : List String := []
deriving DecidableEq, Repr

namespace Parameter

/-- A number between two bounds. -/
def float (name : String) (default : Single) (min max : Double) : Parameter :=
  ⟨name, .float, .float default, some min, some max, []⟩

/-- A whole number between two bounds. -/
def int (name : String) (default min max : Int) : Parameter :=
  ⟨name, .int, .int default, some (.ofInt min), some (.ofInt max), []⟩

/-- A vector without bounds, of as many components as its default. -/
def vector (name : String) (default : Literal) : Parameter :=
  let type :=
    match default with
    | .vec2 .. => .vec2
    | .vec4 .. => .vec4
    | _ => .vec3
  ⟨name, type, default, none, none, []⟩

/-- A color with components from zero to one. -/
def color (name : String) (r g b : Single) : Parameter :=
  ⟨name, .color, .color r g b, some (.ofInt 0), some (.ofInt 1), []⟩

/-- A choice among options. -/
def select (name default : String) (options : List String) : Parameter :=
  ⟨name, .select, .select default, none, none, options⟩

end Parameter

/-- Why a value does not suit a parameter. -/
inductive ParameterError where
  | wrongType (expected : ParameterType) (found : String)
  | wrongLength (expected found : Nat)
  | notFinite
  | outOfRange (value : Double) (min max : Option Double)
  | unknownOption (value : String) (options : List String)
  | malformedColor (text : String)
deriving DecidableEq, Repr

/-- A bound in an error message; two points stand for a missing one. -/
def boundText : Option Double → String
  | some bound => bound.toText
  | none => ".."

def ParameterError.message : ParameterError → String
  | wrongType expected found => s!"expected {expected.name}, got {found}"
  | wrongLength expected found => s!"expected {expected} components, got {found}"
  | notFinite => "value is not a finite number"
  | outOfRange value min max =>
    s!"value {value.toText} is outside [{boundText min}, {boundText max}]"
  | unknownOption value options => s!"'{value}' is not one of: " ++ ", ".intercalate options
  | malformedColor text => s!"malformed color '{text}'"

end NodeShader
