import NodeShader.Graph.Adjacency
import NodeShader.Registry

/-!
# Names of variables

The variables of a node begin with its stem. `variableStem` makes a stem from a node's id,
and `Graph.stems` gives every node of a graph a stem of its own: a number is appended
until none of the node's variables is taken.
-/

namespace NodeShader

/-- A stem while it is written: its text so far, and whether other characters were passed since the
last letter or digit. -/
structure StemWriter where
  text : String := "v_"
  separator : Bool := false

/-- Writes a letter or digit, after the underscore that is due between it and the ones before. Of
another character is only kept that there was one. -/
def StemWriter.push (w : StemWriter) (c : Char) : StemWriter :=
  if c.isAlphanum then
    let text := if w.separator && w.text.utf8ByteSize > 2 then w.text.push '_' else w.text
    ⟨text.push c, false⟩
  else
    { w with separator := true }

/-- The stem of an id: `v_` and the letters and digits in it, with `_` for the characters between
them. -/
def variableStem (id : String) : String :=
  let text := (id.toList.foldl StemWriter.push {}).text
  if text.utf8ByteSize == 2 then text ++ "node" else text

/-- The variable of an output port. -/
def outputVariable (stem : String) (port : Port) : String :=
  if port.uniform then "u_" ++ stem ++ "_" ++ port.name else stem ++ "_" ++ port.name

/-- The names that a node takes: its stem, the variables of its outputs and its temporaries. -/
def takenNames (type : Option NodeType) (stem : String) : List String :=
  match type with
  | none => [stem]
  | some t =>
    let temporaries :=
      match Template.parse t.template with
      | .ok template => template.temporaries.map (temporaryName stem)
      | .error _ => []
    stem :: t.outputs.map (outputVariable stem) ++ temporaries

/-- The stems to try for a node, in order. -/
def stemCandidate (base : String) (n : Nat) : String :=
  if n = 0 then base else base ++ "_" ++ toString (n + 1)

/-- The first candidate from the `n`-th on that is free, among the next `tries`. -/
def firstFree (isFree : String → Bool) (base : String) : (tries n : Nat) → String
  | 0, n => stemCandidate base n
  | tries + 1, n =>
    let candidate := stemCandidate base n
    if isFree candidate then candidate else firstFree isFree base tries (n + 1)

/-- A stem for a node such that none of its names is claimed. A claimed name is taken by at
most one candidate for each kind of name, so there are enough tries. -/
def freeStem (type : Option NodeType) (base : String) (claimed : List String) : String :=
  let isFree (stem : String) : Bool :=
    (takenNames type stem).all (fun name => !claimed.contains name)
  firstFree isFree base (claimed.length * (takenNames type base).length) 0

/-- Stems by node id. -/
abbrev Stems := List (String × String)

/-- Gives stems to the nodes of these ids in turn, none of their names among the claimed. -/
def assignStems (typeOf : String → Option NodeType) (claimed : List String) :
    List String → Stems
  | [] => []
  | id :: ids =>
    let stem := freeStem (typeOf id) (variableStem id) claimed
    (id, stem) :: assignStems typeOf (takenNames (typeOf id) stem ++ claimed) ids

/-- The type of the first node of this id. -/
def Graph.typeOf? (r : Registry) (g : Graph) (id : String) : Option NodeType :=
  match g.node? id with
  | some n => r.type? n.typeId
  | none => none

/-- The stems of all nodes of a graph. -/
def Graph.stems (r : Registry) (g : Graph) : Stems := assignStems (g.typeOf? r) [] g.ids

/-- The stem of a node. -/
def Stems.get (stems : Stems) (id : String) : String :=
  (stems.lookup id).getD (variableStem id)

end NodeShader
