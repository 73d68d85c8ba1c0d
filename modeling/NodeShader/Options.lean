import NodeShader.Shader.Basic

/-!
# Options of a compilation
-/

namespace NodeShader

/-- A language to write shaders in. -/
inductive Language where
  | glsl
deriving DecidableEq, Repr

namespace Language

def name : Language → String
  | glsl => "glsl"

/-- The language of this name. -/
def ofName? (name : String) : Option Language := if name = "glsl" then some glsl else none

end Language

/-- How a graph is compiled. With `optimize`, nodes without a path to the output are left
out. -/
structure Options where
  language : Language := .glsl
  optimize : Bool := true
  entryPoint : EntryPoint := .main
deriving DecidableEq, Repr

end NodeShader
