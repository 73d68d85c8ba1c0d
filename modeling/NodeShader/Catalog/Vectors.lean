import NodeShader.Catalog.Builder

/-!
# Vectors

Construction and geometry.
-/

namespace NodeShader.Catalog

def vec2Construct : NodeType where
  id := "vec2_construct"
  label := "Make Vec2"
  category := .vector
  description := "Build a vec2 from components"
  inputs := [input "x" .float, input "y" .float]
  outputs := [output "vec" .vec2]
  template := Template.write ["vec2 ", var "vec", " = vec2(", arg "x", ", ", arg "y", ");"]

def vec3Construct : NodeType where
  id := "vec3_construct"
  label := "Make Vec3"
  category := .vector
  description := "Build a vec3 from components"
  inputs := [input "x" .float, input "y" .float, input "z" .float]
  outputs := [output "vec" .vec3]
  template := Template.write ["vec3 ", var "vec", " = vec3(", arg "x", ", ", arg "y", ", ", arg "z",
    ");"]

def vec4Construct : NodeType where
  id := "vec4_construct"
  label := "Make Vec4"
  category := .vector
  description := "Build a vec4 from components"
  inputs := [input "x" .float, input "y" .float, input "z" .float, input "w" .float]
  outputs := [output "vec" .vec4]
  template := Template.write ["vec4 ", var "vec", " = vec4(", arg "x", ", ", arg "y", ", ", arg "z",
    ", ", arg "w", ");"]

def vec2ToVec3 : NodeType where
  id := "vec2_to_vec3"
  label := "Vec2 to Vec3"
  category := .vector
  description := "Extend a vec2 with a Z component"
  inputs := [input "vec2" .vec2]
  outputs := [output "vec3" .vec3]
  parameters := [.float "z" (.ofInt 0) (.ofInt (-10)) (.ofInt 10)]
  template := Template.write ["vec3 ", var "vec3", " = vec3(", arg "vec2", ", ", param "z", ");"]

def length : NodeType where
  id := "length"
  label := "Length"
  category := .vector
  description := "Euclidean length"
  inputs := [input "vector" .vec3]
  outputs := [output "length" .float]
  template := Template.write ["float ", var "length", " = length(", arg "vector", ");"]

def normalize : NodeType where
  id := "normalize"
  label := "Normalize"
  category := .vector
  description := "Unit vector in the same direction"
  inputs := [input "vector" .vec3]
  outputs := [output "normalized" .vec3]
  template := Template.write ["vec3 ", var "normalized", " = normalize(", arg "vector", ");"]

def dot : NodeType where
  id := "dot"
  label := "Dot Product"
  category := .vector
  description := "Dot product of two vectors"
  inputs := [input "a" .vec3, input "b" .vec3]
  outputs := [output "result" .float]
  template := Template.write ["float ", var "result", " = dot(", arg "a", ", ", arg "b", ");"]

def cross : NodeType where
  id := "cross"
  label := "Cross Product"
  category := .vector
  description := "Cross product of two vectors"
  inputs := [input "a" .vec3, input "b" .vec3]
  outputs := [output "result" .vec3]
  template := Template.write ["vec3 ", var "result", " = cross(", arg "a", ", ", arg "b", ");"]

def distance : NodeType where
  id := "distance"
  label := "Distance"
  category := .vector
  description := "Distance between two points"
  inputs := [input "a" .vec3, input "b" .vec3]
  outputs := [output "distance" .float]
  template := Template.write ["float ", var "distance", " = distance(", arg "a", ", ", arg "b",
    ");"]

def reflect : NodeType where
  id := "reflect"
  label := "Reflect"
  category := .vector
  description := "Reflect an incident vector about a normal"
  inputs := [input "incident" .vec3, input "normal" .vec3]
  outputs := [output "reflected" .vec3]
  template := Template.write ["vec3 ", var "reflected", " = reflect(", arg "incident", ", ",
    arg "normal", ");"]

def vectors : List NodeType :=
  [vec2Construct, vec3Construct, vec4Construct, vec2ToVec3, length, normalize, dot, cross, distance,
    reflect]

end NodeShader.Catalog
