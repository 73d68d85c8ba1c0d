import NodeShader.Glsl.Mention

/-!
# Names in scope

`Scope.ofMentions` goes through the names that a shader mentions and notes what is wrong
with them: names that are used before they are declared, and calls of functions that are
not known. Every such name is noted once.
-/

namespace NodeShader.Glsl

/-- The variables that a shader may use without a declaration. -/
def builtinVariables : List String :=
  ["gl_FragColor", "gl_FragCoord", "gl_FragData", "gl_FrontFacing", "gl_PointCoord"]

/-- The functions and constructors of the language. -/
def builtinFunctions : List String :=
  ["abs", "acos", "all", "any", "asin", "atan", "bool", "bvec2", "bvec3", "bvec4", "ceil", "clamp",
    "cos", "cross", "degrees", "distance", "dot", "equal", "exp", "exp2", "faceforward", "float",
    "floor", "fract", "greaterThan", "greaterThanEqual", "int", "inversesqrt", "ivec2", "ivec3",
    "ivec4", "length", "lessThan", "lessThanEqual", "log", "log2", "mat2", "mat3", "mat4",
    "matrixCompMult", "max", "min", "mix", "mod", "normalize", "not", "notEqual", "pow", "radians",
    "reflect", "refract", "sign", "sin", "smoothstep", "sqrt", "step", "tan", "texture", "texture2D",
    "texture2DProj", "textureCube", "vec2", "vec3", "vec4", "dFdx", "dFdy", "fwidth"]

/-- The names known at a point of a shader, and what was found wrong up to there. -/
structure Scope where
  declared : List String := []
  functions : List String := []
  callees : List String := []
  undeclared : List String := []
  unknownCalls : List String := []
  unknownUniforms : List (String × String) := []
  narrowings : List (String × String) := []
deriving DecidableEq, Repr

namespace Scope

/-- A name at the end of a list, unless the list has it. -/
def note (name : String) (names : List String) : List String :=
  if name ∈ names then names else names ++ [name]

/-- Whether a name may be used as a variable. -/
def knowsVariable (s : Scope) (name : String) : Bool :=
  s.declared.contains name || s.callees.contains name || builtinVariables.contains name

/-- Whether a name may be called. -/
def knowsFunction (s : Scope) (name : String) : Bool :=
  s.functions.contains name || builtinFunctions.contains name

/-- The scope after a mention. -/
def mention (s : Scope) : Mention → Scope
  | .declaration name => { s with declared := name :: s.declared }
  | .function name => { s with functions := name :: s.functions }
  | .callee name => { s with callees := name :: s.callees }
  | .use name =>
    if s.knowsVariable name then s else { s with undeclared := note name s.undeclared }
  | .call name =>
    if s.knowsFunction name then s else { s with unknownCalls := note name s.unknownCalls }
  | .uniform name type => { s with unknownUniforms := s.unknownUniforms ++ [(name, type)] }
  | .narrowing name vector => { s with narrowings := s.narrowings ++ [(name, vector)] }

/-- The scope at the end of a shader with these mentions. -/
def ofMentions (ms : List Mention) : Scope := ms.foldl mention {}

end Scope

end NodeShader.Glsl
