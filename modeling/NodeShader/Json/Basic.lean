import NodeShader.Dictionary
import NodeShader.Number.Decimal

/-!
# JSON values

A value keeps the fields of an object in the order of the text, repeated names
included. Two leaves stand for what has no value: `unreadable` is a token of the right
form whose content cannot be represented, and `broken` is the place where a text stops
being JSON. Readers of a value therefore meet the faults of a text in its order.

`Json.canonical` forgets the order of the fields of objects: they come in ascending order of
their names, and of several with one name only the last is kept.
-/

namespace NodeShader

/-- A JSON value. Numbers without a point and an exponent are `int` if they fit 64 bits. -/
inductive Json where
  | null
  | bool (b : Bool)
  | int (n : Int)
  | real (d : Decimal)
  | text (s : String)
  | list (items : List Json)
  | record (fields : List (String × Json))
  | unreadable
  | broken
deriving Repr, Inhabited

namespace Json

mutual

/-- Whether the text of a value ended too early. What is broken is always the last part of
all that encloses it. -/
def isBroken : Json → Bool
  | .broken => true
  | .list items => lastBroken items
  | .record fields => lastFieldBroken fields
  | _ => false

def lastBroken : List Json → Bool
  | [] => false
  | [v] => isBroken v
  | _ :: v :: rest => lastBroken (v :: rest)

def lastFieldBroken : List (String × Json) → Bool
  | [] => false
  | [(_, v)] => isBroken v
  | _ :: field :: rest => lastFieldBroken (field :: rest)

end

/-- The value of the first field of this name. -/
def field? (v : Json) (name : String) : Option Json :=
  match v with
  | .record fields => (fields.find? (fun f => f.1 == name)).map Prod.snd
  | _ => none

/-- A list of texts. -/
def texts (items : List String) : Json := .list (items.map .text)

mutual

/-- The value with the fields of every object in ascending order. -/
def canonical : Json → Json
  | .list items => .list (canonicalItems items)
  | .record fields => .record (Dictionary.ofList (canonicalFields fields)).entries
  | v => v

def canonicalItems : List Json → List Json
  | [] => []
  | v :: rest => canonical v :: canonicalItems rest

def canonicalFields : List (String × Json) → List (String × Json)
  | [] => []
  | (name, v) :: rest => (name, canonical v) :: canonicalFields rest

end

end Json

end NodeShader
