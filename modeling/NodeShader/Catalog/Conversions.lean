import NodeShader.Catalog.Builder

/-!
# Conversions between scalars and vectors

Broadcasting, extending and taking apart.
-/

namespace NodeShader.Catalog

def floatToVec2 : NodeType where
  id := "float_to_vec2"
  label := "Float to Vec2"
  category := .utility
  description := "Broadcast a float to every component"
  inputs := [input "value" .float]
  outputs := [output "vec" .vec2]
  template := Template.write ["vec2 ", var "vec", " = vec2(", arg "value", ");"]

def floatToVec3 : NodeType where
  id := "float_to_vec3"
  label := "Float to Vec3"
  category := .utility
  description := "Broadcast a float to every component"
  inputs := [input "value" .float]
  outputs := [output "vec" .vec3]
  template := Template.write ["vec3 ", var "vec", " = vec3(", arg "value", ");"]

def floatToVec4 : NodeType where
  id := "float_to_vec4"
  label := "Float to Vec4"
  category := .utility
  description := "Broadcast a float to every component"
  inputs := [input "value" .float]
  outputs := [output "vec" .vec4]
  template := Template.write ["vec4 ", var "vec", " = vec4(", arg "value", ");"]

def vec3ToVec4 : NodeType where
  id := "vec3_to_vec4"
  label := "Vec3 to Vec4"
  category := .utility
  description := "Extend a vec3 with a W component"
  inputs := [input "vec3" .vec3]
  outputs := [output "vec4" .vec4]
  parameters := [.float "w" (.ofInt 1) (.ofInt 0) (.ofInt 1)]
  template := Template.write ["vec4 ", var "vec4", " = vec4(", arg "vec3", ", ", param "w", ");"]

/-- Takes one component out of a vector. -/
def split (id label : String) (type : DataType) (components : List String) : NodeType where
  id := id
  label := label
  category := .utility
  description := "Extract one component"
  inputs := [input "vec" type]
  outputs := [output "component" .float]
  parameters := [.select "component" "x" components]
  template := Template.write ["float ", var "component", " = ", arg "vec", ".", param "component",
    ";"]

def splitVec2 : NodeType := split "split_vec2" "Split Vec2" .vec2 ["x", "y"]

def splitVec3 : NodeType := split "split_vec3" "Split Vec3" .vec3 ["x", "y", "z"]

def splitVec4 : NodeType := split "split_vec4" "Split Vec4" .vec4 ["x", "y", "z", "w"]

def conversions : List NodeType :=
  [floatToVec2, floatToVec3, floatToVec4, vec3ToVec4, splitVec2, splitVec3, splitVec4]

end NodeShader.Catalog
