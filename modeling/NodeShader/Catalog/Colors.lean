import NodeShader.Catalog.Builder

/-!
# Colors and the output

Color spaces, mixing, and the node that ends a graph.
-/

namespace NodeShader.Catalog

def rgbToHsv : NodeType where
  id := "rgb_to_hsv"
  label := "RGB to HSV"
  category := .color
  description := "Convert RGB to hue, saturation, value"
  inputs := [input "rgb" .color]
  outputs := [output "hsv" .vec3]
  template := Template.write ["vec3 ", var "hsv", " = rgbToHsv(", arg "rgb", ");"]
  helpers := ["rgbToHsv"]

def hsvToRgb : NodeType where
  id := "hsv_to_rgb"
  label := "HSV to RGB"
  category := .color
  description := "Convert hue, saturation, value to RGB"
  inputs := [input "hsv" .vec3]
  outputs := [output "rgb" .color]
  template := Template.write ["vec3 ", var "rgb", " = hsvToRgb(", arg "hsv", ");"]
  helpers := ["hsvToRgb"]

def colorPicker : NodeType where
  id := "color_picker"
  label := "Color"
  category := .color
  description := "Constant color"
  outputs := [output "color" .color]
  parameters := [.color "color" (.ofInt 1) (.ofInt 0) (.ofInt 0)]
  template := Template.write ["vec3 ", var "color", " = ", param "color", ";"]

def mixColors : NodeType where
  id := "mix_colors"
  label := "Mix Colors"
  category := .color
  description := "Blend two colors"
  inputs := [input "colorA" .color, input "colorB" .color,
    inputOr "factor" .float (.float (.nearest false 1 2))]
  outputs := [output "result" .color]
  template := Template.write ["vec3 ", var "result", " = mix(", arg "colorA", ", ", arg "colorB",
    ", ", arg "factor", ");"]

def fragmentOutput : NodeType where
  id := "fragment_output"
  label := "Fragment Output"
  category := .output
  description := "Final fragment color"
  inputs := [input "color" .color]
  template := Template.write [.result, " = vec4(", arg "color", ", 1.0);"]

def colors : List NodeType := [rgbToHsv, hsvToRgb, colorPicker, mixColors]

end NodeShader.Catalog
