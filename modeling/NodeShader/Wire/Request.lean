import NodeShader.Compiler
import NodeShader.Json.Reader
import NodeShader.Wire.Decode

/-!
# Reading graphs, options and requests

A node comes in a plain form, or in the form of an editor that keeps the type and the
parameters of the node under `data` and its own rendering tag as `type`. Edges that come
without an id are numbered.
-/

namespace NodeShader

/-- The type and the parameters that an editor keeps under `data`. -/
structure NodeData where
  type : Option String := none
  parameters : Option (Dictionary ParameterValue) := none

def decodeParameters : Json → Decoded (Dictionary ParameterValue) :=
  Json.decodeDictionary Json.decodeParameterValue

def NodeData.decode (v : Json) : Decoded NodeData := do
  match ← v.decodeFields [["type"], ["parameters"]] with
  | [type, parameters] =>
    return ⟨← Json.optional Json.decodeText type, ← Json.optional decodeParameters parameters⟩
  | _ => throw .malformed

/-- A node. Its type is `typeId`, or else `data.type`, or else `type`; its parameters are
`parameterValues`, or else `data.parameters`, or else `parameters`. -/
def Node.decode (v : Json) : Decoded Node := do
  match ← v.decodeFields
      [["id"], ["typeId"], ["type"], ["parameterValues"], ["parameters"], ["data"]] with
  | [id, typeId, tag, values, parameters, data] =>
    let id ← Json.required Json.decodeText id
    let typeId ← Json.optional Json.decodeText typeId
    let tag ← Json.optional Json.decodeText tag
    let values ← Json.optional decodeParameters values
    let parameters ← Json.optional decodeParameters parameters
    let data := (← Json.optional NodeData.decode data).getD {}
    match typeId <|> data.type <|> tag with
    | some type => return ⟨id, type, (values <|> data.parameters <|> parameters).getD ∅⟩
    | none => throw (.untyped id)
  | _ => throw .malformed

/-- An edge whose id may be missing. -/
structure LooseEdge where
  id : Option String
  source : String
  sourcePort : Option String
  target : String
  targetPort : Option String

namespace LooseEdge

def decode (v : Json) : Decoded LooseEdge := do
  match ← v.decodeFields
      [["id"], ["sourceNodeId", "source"], ["sourcePort", "sourceHandle"], ["targetNodeId", "target"],
        ["targetPort", "targetHandle"]] with
  | [id, source, sourcePort, target, targetPort] =>
    let id ← Json.defaulted none (fun v => some <$> v.decodeText) id
    return ⟨id, ← Json.required Json.decodeText source, ← Json.optional Json.decodeText sourcePort,
      ← Json.required Json.decodeText target, ← Json.optional Json.decodeText targetPort⟩
  | _ => throw .malformed

/-- The edge, under the given id if it has none. -/
def named (e : LooseEdge) (id : String) : Edge :=
  ⟨e.id.getD id, e.source, e.sourcePort, e.target, e.targetPort⟩

end LooseEdge

/-- The id of the `n`th edge that came without one. -/
def automaticId (n : Nat) : String := s!"auto{n}"

/-- Numbers the edges without ids from `next` on; gives the next number as well. -/
def numberEdges (next : Nat) : List LooseEdge → List Edge × Nat
  | [] => ([], next)
  | e :: rest =>
    let following := if e.id.isNone then next + 1 else next
    let (edges, last) := numberEdges following rest
    (e.named (automaticId next) :: edges, last)

/-- The nodes and edges read so far. -/
structure LooseGraph where
  nodes : Option (List Node) := none
  edges : Option (List LooseEdge) := none

namespace LooseGraph

/-- Reads the field of this name. The faults of a graph are met in the order of its fields. -/
def readField (g : LooseGraph) (name : String) (v : Json) : Decoded LooseGraph :=
  if name = "nodes" then
    if g.nodes.isSome then .error .malformed
    else do return { g with nodes := some (← v.decodeList Node.decode) }
  else if name = "edges" then
    if g.edges.isSome then .error .malformed
    else do return { g with edges := some (← v.decodeList LooseEdge.decode) }
  else if v.isBroken then .error .malformed
  else .ok g

def readFields (fields : List (String × Json)) : Decoded LooseGraph :=
  fields.foldlM (fun g (name, v) => g.readField name v) {}

def decode : Json → Decoded LooseGraph
  | .record fields => readFields fields
  | .list items => do
    let g ← readFields (["nodes", "edges"].zip items)
    if items.length ≤ 2 then return g else throw .malformed
  | _ => .error .malformed

/-- The graph, its edges numbered from `next` on, and the next number. -/
def number (g : LooseGraph) (next : Nat) : Graph × Nat :=
  let (edges, last) := numberEdges next (g.edges.getD [])
  (⟨g.nodes.getD [], edges⟩, last)

end LooseGraph

/-- Reads a graph from its JSON form. -/
def Graph.decode (v : Json) (next : Nat) : Decoded (Graph × Nat) := do
  let g ← LooseGraph.decode v
  return g.number next

/-- Reads a graph from JSON text that holds nothing else. -/
def Graph.decodeText (text : String) (next : Nat) : Decoded (Graph × Nat) := do
  let document := Json.read text
  let result ← Graph.decode document.root next
  if document.trailing then throw .malformed else return result

/-- Reads a graph from JSON text; its edges are numbered from zero on. -/
def Graph.ofText (text : String) : Decoded Graph := do return (← Graph.decodeText text 0).1

/-! ## Options, windows and requests -/

def Language.decode (v : Json) : Decoded Language := v.decodeChoice Language.ofName?

def EntryPoint.decode (v : Json) : Decoded EntryPoint := v.decodeChoice EntryPoint.ofName?

def Options.decode (v : Json) : Decoded Options := do
  match ← v.decodeFields [["language"], ["optimize"], ["entryPoint"]] with
  | [language, optimize, entryPoint] =>
    return ⟨← Json.defaulted .glsl Language.decode language,
      ← Json.defaulted true Json.decodeBool optimize,
      ← Json.defaulted .main EntryPoint.decode entryPoint⟩
  | _ => throw .malformed

/-- The window of a session, in milliseconds. -/
def decodeWindow (v : Json) : Decoded Nat := do
  match ← v.decodeFields [["debounce_ms"]] with
  | [window] => Json.defaulted 500 Json.decodeWord window
  | _ => throw .malformed

/-- A request; the edges of its graph are numbered from zero on. -/
def Request.decode (v : Json) : Decoded Request := do
  match ← v.decodeFields [["graph"], ["language"], ["optimize"]] with
  | [graph, language, optimize] =>
    let (g, _) ← Json.required (fun v => Graph.decode v 0) graph
    return ⟨g, ← Json.defaulted .glsl Language.decode language,
      ← Json.defaulted true Json.decodeBool optimize⟩
  | _ => throw .malformed

end NodeShader
