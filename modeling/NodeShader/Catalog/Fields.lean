import NodeShader.Catalog.Builder

/-!
# Noise and distance fields

Functions of a point: noise in the plane and signed distances in space.
-/

namespace NodeShader.Catalog

/-- Noise at a scaled coordinate, computed by a helper function. -/
def noise (id label result function : String) : NodeType where
  id := id
  label := label
  category := .utility
  description := label ++ " sampled at a 2D coordinate"
  inputs := [input "coord" .vec2]
  outputs := [output result .float]
  parameters := [.float "scale" (.ofInt 1) (.nearest false 1 10) (.ofInt 10)]
  template := Template.write ["float ", var result, .text (" = " ++ function ++ "("), arg "coord",
    " * ", param "scale", ");"]
  helpers := [function]

def perlinNoise : NodeType := noise "perlin_noise" "Perlin Noise" "noise" "perlin"

def simplexNoise : NodeType := noise "simplex_noise" "Simplex Noise" "noise" "simplex"

def voronoi : NodeType := noise "voronoi" "Voronoi" "distance" "voronoi"

def fbm : NodeType where
  id := "fbm"
  label := "FBM"
  category := .utility
  description := "Fractal Brownian motion over Perlin noise"
  inputs := [input "coord" .vec2]
  outputs := [output "fbm" .float]
  parameters := [.float "scale" (.ofInt 1) (.nearest false 1 10) (.ofInt 10), .int "octaves" 4 1 8]
  template := Template.write ["float ", var "fbm", " = fbmNoise(", arg "coord", " * ",
    param "scale", ", ", param "octaves", ");"]
  helpers := ["fbmNoise"]

def sdfSphere : NodeType where
  id := "sdf_sphere"
  label := "SDF Sphere"
  category := .utility
  description := "Distance to a sphere at the origin"
  inputs := [input "point" .vec3, inputOr "radius" .float (.float (.nearest false 1 2))]
  outputs := [output "distance" .float]
  template := Template.write ["float ", var "distance", " = length(", arg "point", ") - ",
    arg "radius", ";"]

def sdfBox : NodeType where
  id := "sdf_box"
  label := "SDF Box"
  category := .utility
  description := "Distance to an axis-aligned box at the origin"
  inputs := [input "point" .vec3,
    inputOr "size" .vec3 (.vec3 (.nearest false 1 2) (.nearest false 1 2) (.nearest false 1 2))]
  outputs := [output "distance" .float]
  template := Template.write ["vec3 ", temp "q", " = abs(", arg "point", ") - ", arg "size",
    ";\nfloat ", var "distance", " = length(max(", temp "q", ", 0.0)) + min(max(", temp "q",
    ".x, max(", temp "q", ".y, ", temp "q", ".z)), 0.0);"]

def sdfTorus : NodeType where
  id := "sdf_torus"
  label := "SDF Torus"
  category := .utility
  description := "Distance to a torus in the XZ plane"
  inputs := [input "point" .vec3, inputOr "majorRadius" .float (.float (.ofInt 1)),
    inputOr "minorRadius" .float (.float (.nearest false 1 4))]
  outputs := [output "distance" .float]
  template := Template.write ["float ", var "distance", " = length(vec2(length(", arg "point",
    ".xz) - ", arg "majorRadius", ", ", arg "point", ".y)) - ", arg "minorRadius", ";"]

def fields : List NodeType :=
  [perlinNoise, simplexNoise, voronoi, fbm, sdfSphere, sdfBox, sdfTorus]

end NodeShader.Catalog
