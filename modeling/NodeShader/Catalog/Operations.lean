import NodeShader.Catalog.Builder

/-!
# Scalar operations

Arithmetic, interpolation and functions of one number.
-/

namespace NodeShader.Catalog

/-- An operation on two numbers `a` and `b`, written before, between and after them. -/
def binary (id label description before between after : String) : NodeType where
  id := id
  label := label
  category := .operation
  description := description
  inputs := [input "a" .float, input "b" .float]
  outputs := [output "result" .float]
  template := Template.write ["float ", var "result", .text (" = " ++ before), arg "a",
    .text between, arg "b", .text (after ++ ";")]

/-- An operation on one number, written before and after it. -/
def unary (id label before after : String) : NodeType where
  id := id
  label := label
  category := .operation
  description := label
  inputs := [input "value" .float]
  outputs := [output "result" .float]
  template := Template.write ["float ", var "result", .text (" = " ++ before), arg "value",
    .text (after ++ ";")]

def add : NodeType := binary "add" "Add" "Add two values" "" " + " ""

def subtract : NodeType := binary "subtract" "Subtract" "Subtract B from A" "" " - " ""

def multiply : NodeType := binary "multiply" "Multiply" "Multiply two values" "" " * " ""

def divide : NodeType :=
  binary "divide" "Divide" "Divide A by B, with B clamped away from zero" "" " / max(" ", 0.001)"

def minimum : NodeType := binary "min" "Minimum" "Smaller of two values" "min(" ", " ")"

def maximum : NodeType := binary "max" "Maximum" "Larger of two values" "max(" ", " ")"

def power : NodeType where
  id := "power"
  label := "Power"
  category := .operation
  description := "Raise base to an exponent"
  inputs := [input "base" .float, input "exponent" .float]
  outputs := [output "result" .float]
  template := Template.write ["float ", var "result", " = pow(", arg "base", ", ", arg "exponent",
    ");"]

def mod : NodeType where
  id := "mod"
  label := "Modulo"
  category := .operation
  description := "Remainder of value / divisor"
  inputs := [input "value" .float, input "divisor" .float]
  outputs := [output "result" .float]
  template := Template.write ["float ", var "result", " = mod(", arg "value", ", ", arg "divisor",
    ");"]

def clamp : NodeType where
  id := "clamp"
  label := "Clamp"
  category := .operation
  description := "Constrain a value to a range"
  inputs := [input "value" .float, inputOr "min" .float (.float (.ofInt 0)),
    inputOr "max" .float (.float (.ofInt 1))]
  outputs := [output "result" .float]
  template := Template.write ["float ", var "result", " = clamp(", arg "value", ", ", arg "min",
    ", ", arg "max", ");"]

def lerp : NodeType where
  id := "lerp"
  label := "Lerp"
  category := .operation
  description := "Linear interpolation, t clamped to [0, 1]"
  inputs := [input "a" .float, input "b" .float, input "t" .float]
  outputs := [output "result" .float]
  template := Template.write ["float ", var "result", " = mix(", arg "a", ", ", arg "b", ", clamp(",
    arg "t", ", 0.0, 1.0));"]

def smoothstep : NodeType where
  id := "smoothstep"
  label := "Smoothstep"
  category := .operation
  description := "Hermite interpolation between two edges"
  inputs := [input "edge0" .float, input "edge1" .float, input "x" .float]
  outputs := [output "result" .float]
  template := Template.write ["float ", var "result", " = smoothstep(", arg "edge0", ", ",
    arg "edge1", ", ", arg "x", ");"]

def step : NodeType where
  id := "step"
  label := "Step"
  category := .operation
  description := "0.0 below the edge, 1.0 at or above it"
  inputs := [input "edge" .float, input "x" .float]
  outputs := [output "result" .float]
  template := Template.write ["float ", var "result", " = step(", arg "edge", ", ", arg "x", ");"]

/-- The functions of one number that shader text offers under the node type's own name. -/
def functionOf (id label : String) : NodeType := unary id label (id ++ "(") ")"

def negate : NodeType := unary "negate" "Negate" "-" ""

def operations : List NodeType :=
  [add, subtract, multiply, divide, minimum, maximum, power, mod, clamp, lerp, smoothstep, step,
    functionOf "sin" "Sine", functionOf "cos" "Cosine", functionOf "tan" "Tangent",
    functionOf "sqrt" "Square Root", functionOf "abs" "Absolute", functionOf "floor" "Floor",
    functionOf "ceil" "Ceil", functionOf "fract" "Fraction", functionOf "sign" "Sign", negate]

end NodeShader.Catalog
