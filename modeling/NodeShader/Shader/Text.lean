import NodeShader.Registry
import NodeShader.Shader.Basic
import NodeShader.Text.Character

/-!
# The text of a shader

`shaderText` puts uniforms, helper functions and statements together.
-/

namespace NodeShader

/-- The variable that an output node writes. -/
def resultVariable : String := "fragColor"

/-- The lines of a text without white space at their ends; blank lines are left out. -/
def trimmedLines (text : String) : List String :=
  ((text.toList.splitOn '\n').map trimBlank |>.filter (fun line => !line.isEmpty)).map String.ofList

/-- A line of the entry function's body. -/
def bodyLine (line : String) : String := "    " ++ line ++ "\n"

/-- The declaration of a uniform. -/
def uniformLine (u : Uniform) : String := s!"uniform {u.type.glslName} {u.name};\n"

/-- The definition of a helper function, after an empty line. -/
def helperText (h : HelperFunction) : String :=
  "\n" ++ String.ofList (trimRight h.source.toList) ++ "\n"

/-- What stands before the uniforms. -/
def preamble : EntryPoint → String
  | .main => "precision highp float;\n\n"
  | .mainImage => ""

/-- What stands between the uniforms and the helper functions. -/
def varyings : EntryPoint → String
  | .main => "\nvarying vec2 vUv;\n"
  | .mainImage => ""

/-- The head of the entry function and its first lines. -/
def entryHead : EntryPoint → String
  | .main =>
    "void main() \x7b\n" ++ bodyLine "vec2 fragCoord = vUv * iResolution;" ++
      bodyLine s!"vec4 {resultVariable} = vec4(0.0, 0.0, 0.0, 1.0);"
  | .mainImage =>
    s!"void mainImage(out vec4 {resultVariable}, in vec2 fragCoord) " ++ "\x7b\n" ++
      bodyLine s!"{resultVariable} = vec4(0.0, 0.0, 0.0, 1.0);"

/-- The last lines of the entry function. -/
def entryTail : EntryPoint → String
  | .main => bodyLine s!"gl_FragColor = {resultVariable};" ++ "\x7d\n"
  | .mainImage => "\x7d\n"

/-- The lines that a statement puts into the entry function's body. -/
def statementText (s : Statement) : String := String.join ((trimmedLines s.text).map bodyLine)

/-- The whole text of a shader. -/
def shaderText (r : Registry) (entry : EntryPoint) (uniforms : List Uniform)
    (functions : List String) (statements : List Statement) : String :=
  preamble entry ++ String.join (uniforms.map uniformLine) ++ varyings entry ++
    String.join ((functions.filterMap r.helper?).map helperText) ++ "\n" ++ entryHead entry ++
    String.join (statements.map statementText) ++ entryTail entry

end NodeShader
