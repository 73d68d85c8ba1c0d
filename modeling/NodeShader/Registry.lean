import NodeShader.NodeType

/-!
# Registries

A registry holds node types and the helper functions that their templates call, both in
the order of registration. What is registered again takes the place of its predecessor.
-/

namespace NodeShader

/-- A shader function that is written before the entry point when a node needs it. -/
structure HelperFunction where
  name : String
  source : String
  requires : List String := []
deriving DecidableEq, Repr

/-- Puts `x` in place of the first item with its key, or at the end if there is none. -/
def upsert {α : Type} (key : α → String) (x : α) : List α → List α
  | [] => [x]
  | y :: rest => if key y = key x then x :: rest else y :: upsert key x rest

structure Registry where
  types : List NodeType := []
  helpers : List HelperFunction := []
deriving DecidableEq, Repr

namespace Registry

/-- The registry with a node type added or replaced. -/
def addType (r : Registry) (t : NodeType) : Registry :=
  { r with types := upsert NodeType.id t r.types }

/-- The registry with a helper function added or replaced. -/
def addHelper (r : Registry) (h : HelperFunction) : Registry :=
  { r with helpers := upsert HelperFunction.name h r.helpers }

/-- The node type of this id. -/
def type? (r : Registry) (id : String) : Option NodeType := r.types.find? (fun t => t.id == id)

/-- The helper function of this name. -/
def helper? (r : Registry) (name : String) : Option HelperFunction :=
  r.helpers.find? (fun h => h.name == name)

/-- The node types of a category. -/
def ofCategory (r : Registry) (c : Category) : List NodeType :=
  r.types.filter (fun t => t.category == c)

end Registry

end NodeShader
