import NodeShader.Json.Basic
import NodeShader.Number.Decimal
import NodeShader.Parameter.Basic

/-!
# Reading JSON forms

A form that cannot be read is `malformed`; the only fault that is named is a node without a
type. An object of known fields may also be written as the list of their values. Fields that
are not known are ignored, but a known one must not come twice.
-/

namespace NodeShader

/-- Why a JSON form cannot be read. -/
inductive WireError where
  | malformed
  | untyped (node : String)
deriving DecidableEq, Repr

/-- The message for a fault that is named. -/
def WireError.message? : WireError → Option String
  | malformed => none
  | untyped node => some s!"node '{node}' has no type (expected typeId or data.type)"

/-- What a form reads as. -/
abbrev Decoded (α : Type) := Except WireError α

namespace Json

def decodeText : Json → Decoded String
  | .text s => .ok s
  | _ => .error .malformed

def decodeBool : Json → Decoded Bool
  | .bool b => .ok b
  | _ => .error .malformed

/-- A number, rounded to double precision. -/
def decodeNumber : Json → Decoded Double
  | .int n => .ok (.ofInt n)
  | .real d => .ok d.toBinary
  | _ => .error .malformed

/-- A whole number of 64 bits without a sign. -/
def decodeWord : Json → Decoded Nat
  | .int n => if fitsUnsigned 64 n then .ok n.toNat else .error .malformed
  | _ => .error .malformed

def decodeList {α : Type} (decode : Json → Decoded α) : Json → Decoded (List α)
  | .list items => items.mapM decode
  | _ => .error .malformed

/-- An object of any names; of two values with one name the later counts. -/
def decodeDictionary {α : Type} (decode : Json → Decoded α) : Json → Decoded (Dictionary α)
  | .record fields => do
    let entries ← fields.mapM fun (name, v) => return (name, ← decode v)
    return .ofList entries
  | _ => .error .malformed

/-- The name of an alternative: a text, or an object that maps it to null. -/
def decodeName : Json → Decoded String
  | .text s => .ok s
  | .record [(s, .null)] => .ok s
  | _ => .error .malformed

/-- One of several named alternatives. -/
def decodeChoice {α : Type} (ofName? : String → Option α) (v : Json) : Decoded α := do
  let name ← v.decodeName
  match ofName? name with
  | some a => return a
  | none => throw .malformed

/-- A parameter's value. A whole number beyond the signed ones of 64 bits is a float. -/
def decodeParameterValue : Json → Decoded ParameterValue
  | .bool b => .ok (.bool b)
  | .int n => .ok (if fitsSigned 64 n then .int n else .float (.ofInt n))
  | .real d => .ok (.float d.toBinary)
  | .text s => .ok (.text s)
  | v => do return .vector (← v.decodeList decodeNumber)

/-! ## Objects of known fields -/

/-- The position of the field that a name means; each field has one or more names. -/
def fieldIndex? (fields : List (List String)) (name : String) : Option Nat :=
  fields.findIdx? (fun names => names.contains name)

/-- The values for the known fields, none of which comes twice. -/
def collect (fields : List (List String)) :
    List (String × Json) → Decoded (List (Option Json))
  | [] => .ok (fields.map fun _ => none)
  | (name, v) :: rest => do
    let values ← collect fields rest
    match fieldIndex? fields name with
    | none => if v.isBroken then throw .malformed else return values
    | some i =>
      match values[i]? with
      | some none => return values.set i (some v)
      | _ => throw .malformed

/-- The values for the known fields, from an object or from a list of values. -/
def decodeFields (fields : List (List String)) : Json → Decoded (List (Option Json))
  | .record entries => collect fields entries
  | .list items =>
    if items.length ≤ fields.length then
      .ok (items.map some ++ List.replicate (fields.length - items.length) none)
    else
      .error .malformed
  | _ => .error .malformed

/-- The value of a field that must be there. -/
def required {α : Type} (decode : Json → Decoded α) : Option Json → Decoded α
  | some v => decode v
  | none => .error .malformed

/-- The value of a field with a default. -/
def defaulted {α : Type} (default : α) (decode : Json → Decoded α) : Option Json → Decoded α
  | some v => decode v
  | none => .ok default

/-- The value of an optional field; null is no value. -/
def optional {α : Type} (decode : Json → Decoded α) : Option Json → Decoded (Option α)
  | none | some .null => .ok none
  | some v => do return some (← decode v)

end Json

end NodeShader
