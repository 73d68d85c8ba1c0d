import NodeShader.Color
import NodeShader.Number.Decimal
import NodeShader.Parameter.Basic

/-!
# Resolving parameter values

`Parameter.resolve` narrows a value to a literal of the parameter's type. Only such
literals reach shader text.
-/

namespace NodeShader

/-- The number that a value is, if it is one. -/
def ParameterValue.number? : ParameterValue → Option Double
  | int n => some (.ofInt n)
  | float x => some x
  | _ => none

/-- The nearest number of single precision, unless that overflows. -/
def narrow (x : Double) : Except ParameterError Single :=
  let narrowed : Single := x.convert
  if narrowed.isFinite then .ok narrowed else .error .notFinite

/-- The whole number of 32 bits, with a sign, that a number equals. -/
def wholeNumber? (x : Double) : Option Int :=
  match x.toInt? with
  | some n => if fitsSigned 32 n then some n else none
  | none => none

namespace Parameter

def wrongType (p : Parameter) (value : ParameterValue) : ParameterError :=
  .wrongType p.type value.kindName

/-- Accepts a finite number within the bounds. -/
def checkBounds (p : Parameter) (x : Double) : Except ParameterError Unit :=
  let below := p.min.any (fun min => x.lt min)
  let above := p.max.any (fun max => max.lt x)
  if !x.isFinite then .error .notFinite
  else if below || above then .error (.outOfRange x p.min p.max)
  else .ok ()

/-- The number that a value is, within the bounds. -/
def number (p : Parameter) (value : ParameterValue) : Except ParameterError Double :=
  match value.number? with
  | none => .error (p.wrongType value)
  | some x => do
    p.checkBounds x
    return x

/-- One component of a vector. -/
def component (p : Parameter) (x : Double) : Except ParameterError Single := do
  p.checkBounds x
  narrow x

/-- The components of a vector of the given length. -/
def components (p : Parameter) (count : Nat) (value : ParameterValue) :
    Except ParameterError (List Single) :=
  match value with
  | .vector items =>
    if items.length = count then items.mapM p.component
    else .error (.wrongLength count items.length)
  | _ => .error (p.wrongType value)

/-- Narrows a value to a literal of the parameter's type. -/
def resolve (p : Parameter) (value : ParameterValue) : Except ParameterError Literal :=
  match p.type with
  | .float => do
    let x ← p.number value
    return .float (← narrow x)
  | .int => do
    let x ← p.number value
    match wholeNumber? x with
    | some n => return .int n
    | none => throw (p.wrongType value)
  | .vec2 => do
    match ← p.components 2 value with
    | [x, y] => return .vec2 x y
    | _ => throw (p.wrongType value)
  | .vec3 => do
    match ← p.components 3 value with
    | [x, y, z] => return .vec3 x y z
    | _ => throw (p.wrongType value)
  | .vec4 => do
    match ← p.components 4 value with
    | [x, y, z, w] => return .vec4 x y z w
    | _ => throw (p.wrongType value)
  | .color =>
    match value with
    | .text text =>
      match hexColor text with
      | .ok (r, g, b) => .ok (.color r g b)
      | .error _ => .error (.malformedColor text)
    | _ => do
      match ← p.components 3 value with
      | [r, g, b] => return .color r g b
      | _ => throw (p.wrongType value)
  | .select =>
    match value with
    | .text text =>
      if p.options.contains text then .ok (.select text)
      else .error (.unknownOption text p.options)
    | _ => .error (p.wrongType value)

end Parameter

end NodeShader
