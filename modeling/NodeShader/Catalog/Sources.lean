import NodeShader.Catalog.Builder

/-!
# Nodes that bring values into a graph

Coordinates, time, the mouse and constants.
-/

namespace NodeShader.Catalog

def uvInput : NodeType where
  id := "uv_input"
  label := "UV Coordinates"
  category := .input
  description := "Normalized screen coordinates"
  outputs := [output "uv" .vec2, output "x" .float, output "y" .float]
  template := Template.write ["vec2 ", var "uv", " = fragCoord / iResolution.xy;\nfloat ", var "x",
    " = ", var "uv", ".x;\nfloat ", var "y", " = ", var "uv", ".y;"]

def timeInput : NodeType where
  id := "time_input"
  label := "Time"
  category := .input
  description := "Seconds since the shader started"
  outputs := [output "time" .float]
  template := Template.write ["float ", var "time", " = iTime;"]

def mouseInput : NodeType where
  id := "mouse_input"
  label := "Mouse"
  category := .input
  description := "Normalized mouse position"
  outputs := [output "mouse" .vec2]
  template := Template.write ["vec2 ", var "mouse", " = iMouse.xy / iResolution.xy;"]

def floatConstant : NodeType where
  id := "float_constant"
  label := "Float"
  category := .input
  description := "Constant float value"
  outputs := [output "value" .float]
  parameters := [.float "value" (.ofInt 1) (.ofInt (-10)) (.ofInt 10)]
  template := Template.write ["float ", var "value", " = ", param "value", ";"]

def vec2Constant : NodeType where
  id := "vec2_constant"
  label := "Vector2"
  category := .input
  description := "Constant 2D vector"
  outputs := [output "vec" .vec2]
  parameters := [.float "x" (.ofInt 0) (.ofInt (-10)) (.ofInt 10),
    .float "y" (.ofInt 0) (.ofInt (-10)) (.ofInt 10)]
  template := Template.write ["vec2 ", var "vec", " = vec2(", param "x", ", ", param "y", ");"]

def vec3Constant : NodeType where
  id := "vec3_constant"
  label := "Vector3"
  category := .input
  description := "Constant 3D vector"
  outputs := [output "vec" .vec3]
  parameters := [.float "x" (.ofInt 0) (.ofInt (-10)) (.ofInt 10),
    .float "y" (.ofInt 0) (.ofInt (-10)) (.ofInt 10),
    .float "z" (.ofInt 0) (.ofInt (-10)) (.ofInt 10)]
  template := Template.write ["vec3 ", var "vec", " = vec3(", param "x", ", ", param "y", ", ",
    param "z", ");"]

def sources : List NodeType :=
  [uvInput, timeInput, mouseInput, floatConstant, vec2Constant, vec3Constant]

end NodeShader.Catalog
