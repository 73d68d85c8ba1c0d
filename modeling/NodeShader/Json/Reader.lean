import NodeShader.Json.Token

/-!
# Reading JSON text

The tokens of a text drive a machine with a stack of the lists and objects that are
still open. `Json.read` gives the value, and whether anything but white space follows
it; where the text is at fault, all that precedes the fault is kept.
-/

namespace NodeShader

namespace Json

/-- A list or an object that is still open, its parts newest first; an object waits for the
value of a name. -/
inductive Frame where
  | list (items : List Json)
  | record (fields : List (String × Json)) (name : String)

/-- What the machine waits for. An object whose name is awaited is not on the stack yet. -/
inductive Expectation where
  | value
  | firstItem
  | name (fields : List (String × Json)) (mayClose : Bool)
  | colon (fields : List (String × Json)) (name : String)
  | next (value : Json)

inductive Machine where
  | running (expects : Expectation) (stack : List Frame)
  | stopped (root : Json) (trailing : Bool)

/-- The value that ends with `v` in the open frames. -/
def enclose (v : Json) : List Frame → Json
  | [] => v
  | .list items :: stack => enclose (.list (v :: items).reverse) stack
  | .record fields name :: stack => enclose (.record ((name, v) :: fields).reverse) stack

/-- Stops at a fault. -/
def fail (expects : Expectation) (stack : List Frame) : Machine :=
  let root :=
    match expects, stack with
    | .value, _ | .firstItem, _ => enclose .broken stack
    | .name fields _, _ => enclose (.record (("", .broken) :: fields).reverse) stack
    | .colon fields name, _ => enclose (.record ((name, .broken) :: fields).reverse) stack
    | .next v, .list items :: stack => enclose .broken (.list (v :: items) :: stack)
    | .next v, .record fields name :: stack =>
      enclose (.record (("", .broken) :: (name, v) :: fields).reverse) stack
    | .next v, [] => v
  .stopped root false

/-- A token where a value may begin. -/
def startValue (token : Token) (expects : Expectation) (stack : List Frame) : Machine :=
  match token with
  | .scalar v => .running (.next v) stack
  | .string (some s) => .running (.next (.text s)) stack
  | .string none => .running (.next .unreadable) stack
  | .openList => .running .firstItem (.list [] :: stack)
  | .openRecord => .running (.name [] true) stack
  | _ => fail expects stack

def step : Machine → Token → Machine
  | .stopped root trailing, _ => .stopped root trailing
  | .running expects stack, token =>
    match expects, token, stack with
    | .value, token, stack => startValue token .value stack
    | .firstItem, .closeList, .list items :: stack =>
      .running (.next (.list items.reverse)) stack
    | .firstItem, token, stack => startValue token .firstItem stack
    | .name fields _, .string (some name), stack => .running (.colon fields name) stack
    | .name fields true, .closeRecord, stack =>
      .running (.next (.record fields.reverse)) stack
    | .colon fields name, .colon, stack => .running .value (.record fields name :: stack)
    | .next v, _, [] => .stopped v true
    | .next v, .comma, .list items :: stack => .running .value (.list (v :: items) :: stack)
    | .next v, .closeList, .list items :: stack =>
      .running (.next (.list (v :: items).reverse)) stack
    | .next v, .comma, .record fields name :: stack =>
      .running (.name ((name, v) :: fields) false) stack
    | .next v, .closeRecord, .record fields name :: stack =>
      .running (.next (.record ((name, v) :: fields).reverse)) stack
    | expects, _, stack => fail expects stack

/-- A value read from a text, and whether more follows it. -/
structure Document where
  root : Json
  trailing : Bool

/-- The end of the text. -/
def finish : Machine → Document
  | .stopped root trailing => ⟨root, trailing⟩
  | .running (.next v) [] => ⟨v, false⟩
  | .running expects stack =>
    match fail expects stack with
    | .stopped root trailing => ⟨root, trailing⟩
    | .running .. => ⟨.broken, false⟩

/-- Reads a text. -/
def read (text : String) : Document :=
  finish ((tokens text.toList).foldl step (.running .value []))

end Json

end NodeShader
