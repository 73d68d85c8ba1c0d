import NodeShader.Literal
import NodeShader.Number.Decimal

/-!
# Ports

A node type declares input and output ports. An edge names a port by a handle:
`resolveHandle` finds the port that a handle means.
-/

namespace NodeShader

inductive Direction where
  | input
  | output
deriving DecidableEq, Repr

/-- The name of a direction, which is also the stem of its positional handles. -/
def Direction.stem : Direction → String
  | input => "input"
  | output => "output"

/-- A port of a node type. An input without a `default` must be connected; a `uniform`
output is backed by a uniform of the shader and not by a variable. -/
structure Port where
  name : String
  direction : Direction
  type : DataType
  default : Option Literal := none
  uniform : Bool := false
deriving DecidableEq, Repr

/-- Whether an edge into the port is mandatory. -/
def Port.isRequired (p : Port) : Bool := p.direction == .input && p.default.isNone

/-- Reads an optional plus and decimal digits of a number that fits 64 bits. -/
def wordOfDigits? (cs : List Char) : Option Nat :=
  let digits :=
    match cs with
    | '+' :: rest => rest
    | _ => cs
  let value := ofDecimalDigits digits
  if digits ≠ [] ∧ digits.all Char.isDigit ∧ fitsUnsigned 64 value then some value else none

/-- The position that a positional handle means: the stem alone is the first port, and the
stem followed by a number counts from one. -/
def positionalIndex? (direction : Direction) (handle : String) : Option Nat :=
  match direction.stem.toList.isPrefixOf? handle.toList with
  | none => none
  | some [] => some 0
  | some suffix =>
    match wordOfDigits? suffix with
    | some (n + 1) => some n
    | _ => none

/-- The index of the port that a handle means. A port's own name wins over a positional
handle, and a missing handle means the first port. -/
def resolveHandle (ports : List Port) (direction : Direction) (handle : Option String) :
    Option Nat :=
  match handle with
  | none => if ports.isEmpty then none else some 0
  | some handle =>
    match ports.findIdx? (fun p => p.name == handle) with
    | some i => some i
    | none =>
      match positionalIndex? direction handle with
      | some i => if i < ports.length then some i else none
      | none => none

end NodeShader
