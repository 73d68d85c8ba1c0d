import Mathlib.Data.List.Nodup
import NodeShader.Proofs.Dictionary
import NodeShader.Proofs.Failure
import NodeShader.Proofs.Rounding
import NodeShader.Wire.Encode
import NodeShader.Wire.Request

/-!
# Graphs as JSON

What an object of known fields is read as depends on the value of each field, and neither on the
order of the fields (`Json.collect_perm`) nor on which of its names a field has
(`Json.collect_congr`). So a node is read alike from each of its forms
(`Node.decode_of_writtenAs`), and so is an edge (`Edge.decode_of_writtenAs`). The values of
parameters are told apart by their forms: a float is written as a decimal even where it is whole,
and a vector as a list even where it is empty (`ParameterValue.decode_toJson`).

* `graph_json_round_trip`: a graph is read back from its JSON form, and from its other forms.
-/

namespace NodeShader

/-! ## Objects of known fields -/

namespace Json

variable {fields : List (List String)} {entries others : List (String × Json)}

/-- Names of known fields, no two of the same field. -/
def Orderly (fields : List (List String)) (names : List String) : Prop :=
  none ∉ names.map (fieldIndex? fields) ∧ (names.map (fieldIndex? fields)).Nodup

instance (fields : List (List String)) (names : List String) : Decidable (Orderly fields names) :=
  inferInstanceAs (Decidable (_ ∧ _))

theorem Orderly.of_cons {name : String} {names : List String}
    (h : Orderly fields (name :: names)) : Orderly fields names :=
  ⟨fun hnone => h.1 (List.mem_cons_of_mem _ hnone), (List.nodup_cons.mp h.2).2⟩

theorem Orderly.perm {names others : List String} (h : Orderly fields names)
    (hperm : names.Perm others) : Orderly fields others :=
  ⟨fun hnone => h.1 ((hperm.map _).mem_iff.mpr hnone), (hperm.map _).nodup_iff.mp h.2⟩

theorem Orderly.sublist {names all : List String} (h : Orderly fields all)
    (hsub : names.Sublist all) : Orderly fields names :=
  ⟨fun hnone => h.1 ((hsub.map _).subset hnone), h.2.sublist (hsub.map _)⟩

/-- The fields of a list that are there. -/
def present (fields : List (String × Option Json)) : List (String × Json) :=
  fields.filterMap fun (name, value) => value.map fun v => (name, v)

theorem ofFields_eq (fields : List (String × Option Json)) :
    ofFields fields = .record (present fields) := rfl

theorem names_present_sublist (fields : List (String × Option Json)) :
    ((present fields).map Prod.fst).Sublist (fields.map Prod.fst) := by
  induction fields with
  | nil => exact List.Sublist.slnil
  | cons field rest ih =>
    obtain ⟨name, value⟩ := field
    cases value with
    | none => exact ih.cons name
    | some v => exact ih.cons_cons name

theorem fieldIndex?_lt {name : String} {i : Nat} (h : fieldIndex? fields name = some i) :
    i < fields.length :=
  (List.findIdx?_eq_some_iff_getElem.mp h).1

/-- The values of an object's known fields are the ones under the names of the fields. -/
theorem collect_spec (h : Orderly fields (entries.map Prod.fst)) :
    ∃ values, collect fields entries = .ok values ∧ values.length = fields.length ∧
      ∀ i v, values[i]? = some (some v) ↔
        ∃ e ∈ entries, fieldIndex? fields e.1 = some i ∧ e.2 = v := by
  induction entries with
  | nil => exact ⟨_, rfl, List.length_map _, by simp [List.getElem?_replicate]⟩
  | cons entry rest ih =>
    obtain ⟨name, w⟩ := entry
    obtain ⟨values, hvalues, hlength, hspec⟩ := ih h.of_cons
    obtain ⟨j, hj⟩ : ∃ j, fieldIndex? fields name = some j :=
      Option.ne_none_iff_exists'.mp fun hnone => h.1 (hnone ▸ List.mem_cons_self)
    have hbound : j < values.length := hlength ▸ fieldIndex?_lt hj
    -- the field has no value yet, because the names that follow belong to other fields
    have hvacant : values[j]? = some none := by
      rw [List.getElem?_eq_getElem hbound]
      cases hv : values[j] with
      | none => rfl
      | some v =>
        obtain ⟨e, he, hindex, -⟩ := (hspec j v).mp (by rw [List.getElem?_eq_getElem hbound, hv])
        have hname : e.1 ∈ rest.map Prod.fst := List.mem_map_of_mem he
        have hagain := List.mem_map_of_mem (f := fieldIndex? fields) hname
        rw [hindex, ← hj] at hagain
        exact absurd hagain (List.nodup_cons.mp h.2).1
    refine ⟨values.set j (some w), ?_, by rw [List.length_set, hlength], fun i v => ?_⟩
    · simp only [collect, hvalues, hj, hvacant, bind, Except.bind, pure, Except.pure]
    · rw [List.getElem?_set, List.exists_mem_cons_iff, ← hspec i v, hj]
      by_cases hi : j = i
      · subst hi
        rw [hvacant, if_pos rfl, if_pos hbound]
        simp
      · simp [hi]

theorem collect_perm (h : Orderly fields (entries.map Prod.fst)) (hperm : entries.Perm others) :
    collect fields entries = collect fields others := by
  obtain ⟨values, hvalues, hlength, hspec⟩ := collect_spec h
  obtain ⟨values', hvalues', hlength', hspec'⟩ := collect_spec (h.perm (hperm.map _))
  rw [hvalues, hvalues']
  congr 1
  refine List.ext_getElem (hlength.trans hlength'.symm) fun i hi hi' => ?_
  refine Option.ext fun v => ?_
  have hsame := (hspec i v).trans (Iff.trans (by simp only [hperm.mem_iff]) (hspec' i v).symm)
  rw [List.getElem?_eq_getElem hi, List.getElem?_eq_getElem hi'] at hsame
  simpa using hsame

/-- The names of fields may be replaced by others of the same fields. -/
theorem collect_congr
    (h : List.Forall₂ (fun d e => e.2 = d.2 ∧ fieldIndex? fields e.1 = fieldIndex? fields d.1)
      entries others) :
    collect fields entries = collect fields others := by
  induction h with
  | nil => rfl
  | cons hhead _ ih => rw [collect, collect, ih, hhead.1, hhead.2]

end Json

/-! ## Parameters -/

theorem BinaryFormat.double_wide : double.Wide := ⟨by decide, by decide⟩

/-- A finite number is written as a decimal that is rounded to it. -/
theorem Binary.exists_toJson {x : Double} (h : x.isFinite) :
    ∃ d : Decimal, x.toJson = .real d ∧ d.toBinary = x := by
  cases x with
  | finite negative rank =>
    exact ⟨shortest .double negative rank, rfl,
      toBinary_shortest BinaryFormat.double_wide negative rank⟩
  | infinite negative => cases h
  | nan => cases h

/-- A value that the JSON form can hold: a whole number of 64 bits, or finite numbers. -/
def ParameterValue.Storable : ParameterValue → Prop
  | int n => fitsSigned 64 n
  | float x => x.isFinite
  | vector components => ∀ x ∈ components, x.isFinite
  | _ => True

instance : (value : ParameterValue) → Decidable value.Storable
  | .int n => inferInstanceAs (Decidable (fitsSigned 64 n = true))
  | .float x => inferInstanceAs (Decidable (x.isFinite = true))
  | .vector components => inferInstanceAs (Decidable (∀ x ∈ components, x.isFinite = true))
  | .bool _ | .text _ => inferInstanceAs (Decidable True)

/-- A value is read back with its kind. -/
theorem ParameterValue.decode_toJson {value : ParameterValue} (h : value.Storable) :
    Json.decodeParameterValue value.toJson = .ok value := by
  cases value with
  | bool b => rfl
  | int n =>
    have hfits : fitsSigned 64 n := h
    rw [toJson, Json.decodeParameterValue, if_pos hfits]
  | float x =>
    obtain ⟨d, hjson, hd⟩ := Binary.exists_toJson h
    rw [toJson, hjson, Json.decodeParameterValue, hd]
  | vector components =>
    have hcomponents : (components.map Binary.toJson).mapM Json.decodeNumber = .ok components := by
      rw [mapM_eq_ok, List.forall₂_map_left_iff, List.forall₂_same]
      intro x hx
      obtain ⟨d, hjson, hd⟩ := Binary.exists_toJson (h x hx)
      rw [hjson, Json.decodeNumber, hd]
    simp only [toJson, Json.decodeParameterValue, Json.decodeList, hcomponents]
    rfl
  | text s => rfl

/-- The JSON form of a node's parameters. -/
def parametersJson (parameters : Dictionary ParameterValue) : Json :=
  .record (parameters.entries.map fun (name, value) => (name, value.toJson))

theorem decodeParameters_toJson {parameters : Dictionary ParameterValue}
    (h : ∀ e ∈ parameters.entries, e.2.Storable) :
    decodeParameters (parametersJson parameters) = .ok parameters := by
  refine bind_eq_ok.mpr ⟨parameters.entries, ?_, ?_⟩
  · rw [mapM_eq_ok, List.forall₂_map_left_iff, List.forall₂_same]
    intro e he
    exact bind_eq_ok.mpr ⟨e.2, ParameterValue.decode_toJson (h e he), rfl⟩
  · rw [Dictionary.ofList_entries]
    rfl

/-! ## Nodes -/

namespace Node

/-- Fields that give way to those of the plain form of a node. Each of them can be read, but may
say something else than the plain form. -/
structure Yielding where
  type : Option Json
  parameters : Option Json
  data : Option Json
  readable_type : ∃ t, Json.optional Json.decodeText type = .ok t
  readable_parameters : ∃ ps, Json.optional decodeParameters parameters = .ok ps
  readable_data : ∃ d, Json.optional NodeData.decode data = .ok d

def Yielding.fields (y : Yielding) : List (String × Json) :=
  Json.present [("type", y.type), ("parameters", y.parameters), ("data", y.data)]

/-- The forms of a node: the fields of the plain form and fields that give way to them, in any
order. -/
def WrittenAs (n : Node) (v : Json) : Prop :=
  ∃ (plain : List (String × Json)) (extra : Yielding) (fields : List (String × Json)),
    n.toJson = .record plain ∧ (plain ++ extra.fields).Perm fields ∧ v = .record fields

theorem writtenAs_toJson (n : Node) : n.WrittenAs n.toJson :=
  ⟨_, ⟨none, none, none, ⟨_, rfl⟩, ⟨_, rfl⟩, ⟨_, rfl⟩⟩, _, rfl, .refl _, rfl⟩

/-- The fields that a node is read from. -/
def wireFields : List (List String) :=
  [["id"], ["typeId"], ["type"], ["parameterValues"], ["parameters"], ["data"]]

theorem collect_wireFields {n : Node} {plain : List (String × Json)}
    (hplain : n.toJson = .record plain) (extra : Yielding) :
    Json.collect wireFields (plain ++ extra.fields) = .ok [some (.text n.id),
      some (.text n.typeId), extra.type, some (parametersJson n.parameters), extra.parameters,
      extra.data] := by
  cases hplain
  obtain ⟨type, parameters, data, -, -, -⟩ := extra
  cases type <;> cases parameters <;> cases data <;> rfl

theorem orderly_wireFields {n : Node} {plain : List (String × Json)}
    (hplain : n.toJson = .record plain) (extra : Yielding) :
    Json.Orderly wireFields ((plain ++ extra.fields).map Prod.fst) := by
  cases hplain
  have hall : Json.Orderly wireFields
      (["id", "typeId", "parameterValues"] ++ ["type", "parameters", "data"]) := by decide
  rw [List.map_append]
  exact hall.sublist ((Json.names_present_sublist _).append_left _)

/-- A node with the parameters that its own are read back as. -/
def reread (n : Node) : Decoded Node :=
  (decodeParameters (parametersJson n.parameters)).map fun ps => { n with parameters := ps }

/-- What gives way to the plain form of a node does not change what the node is read as. -/
theorem decode_of_writtenAs {n : Node} {v : Json} (h : n.WrittenAs v) :
    Node.decode v = n.reread := by
  obtain ⟨plain, extra, fields, hplain, hperm, rfl⟩ := h
  have hvalues : Json.collect wireFields fields = _ :=
    (Json.collect_perm (orderly_wireFields hplain extra) hperm).symm.trans
      (collect_wireFields hplain extra)
  obtain ⟨tag, htag⟩ := extra.readable_type
  obtain ⟨parameters, hparameters⟩ := extra.readable_parameters
  obtain ⟨data, hdata⟩ := extra.readable_data
  change (Json.collect wireFields fields >>= _) = _
  rw [hvalues]
  have hown : Json.optional decodeParameters (some (parametersJson n.parameters)) =
      (decodeParameters (parametersJson n.parameters)).map some := rfl
  simp only [bind, Except.bind, Json.required, Json.decodeText, htag, hown, hparameters, hdata,
    reread]
  cases decodeParameters (parametersJson n.parameters) with
  | error e => rfl
  | ok ps => rfl

end Node

/-! ## Edges -/

namespace Edge

/-- The names of the fields of an edge, each with the name that it also goes by. -/
def aliases : List (String × String) :=
  [("sourceNodeId", "source"), ("sourcePort", "sourceHandle"), ("targetNodeId", "target"),
    ("targetPort", "targetHandle")]

/-- The same value, under the same name or the other one. -/
def Respelt (field spelt : String × Json) : Prop :=
  spelt.2 = field.2 ∧ (spelt.1 = field.1 ∨ (field.1, spelt.1) ∈ aliases)

/-- The forms of an edge: the fields of its plain form in any order, each under either name. -/
def WrittenAs (e : Edge) (v : Json) : Prop :=
  ∃ plain ordered fields, e.toJson = .record plain ∧ plain.Perm ordered ∧
    List.Forall₂ Respelt ordered fields ∧ v = .record fields

theorem writtenAs_toJson (e : Edge) : e.WrittenAs e.toJson :=
  ⟨_, _, _, rfl, .refl _, List.forall₂_same.mpr fun _ _ => ⟨rfl, .inl rfl⟩, rfl⟩

/-- The fields that an edge is read from. -/
def wireFields : List (List String) :=
  [["id"], ["sourceNodeId", "source"], ["sourcePort", "sourceHandle"], ["targetNodeId", "target"],
    ["targetPort", "targetHandle"]]

theorem fieldIndex?_of_mem_aliases {names : String × String} (h : names ∈ aliases) :
    Json.fieldIndex? wireFields names.2 = Json.fieldIndex? wireFields names.1 := by
  revert names
  decide

theorem Respelt.fieldIndex? {field spelt : String × Json} (h : Respelt field spelt) :
    Json.fieldIndex? wireFields spelt.1 = Json.fieldIndex? wireFields field.1 := by
  obtain ⟨-, hname | halias⟩ := h
  · rw [hname]
  · exact fieldIndex?_of_mem_aliases halias

theorem collect_wireFields {e : Edge} {plain : List (String × Json)}
    (hplain : e.toJson = .record plain) :
    Json.collect wireFields plain = .ok [some (.text e.id), some (.text e.source),
      e.sourcePort.map .text, some (.text e.target), e.targetPort.map .text] := by
  cases hplain
  obtain ⟨id, source, sourcePort, target, targetPort⟩ := e
  cases sourcePort <;> cases targetPort <;> rfl

theorem orderly_wireFields {e : Edge} {plain : List (String × Json)}
    (hplain : e.toJson = .record plain) : Json.Orderly wireFields (plain.map Prod.fst) := by
  rw [Edge.toJson, Json.ofFields_eq] at hplain
  cases hplain
  have hall : Json.Orderly wireFields
      ["id", "sourceNodeId", "sourcePort", "targetNodeId", "targetPort"] := by decide
  exact hall.sublist (Json.names_present_sublist _)

/-- The edge with its id. -/
def loose (e : Edge) : LooseEdge := ⟨some e.id, e.source, e.sourcePort, e.target, e.targetPort⟩

/-- Every form of an edge is read as the edge. -/
theorem decode_of_writtenAs {e : Edge} {v : Json} (h : e.WrittenAs v) :
    LooseEdge.decode v = .ok e.loose := by
  obtain ⟨plain, ordered, fields, hplain, hperm, hspelt, rfl⟩ := h
  have hrenamed : Json.collect wireFields ordered = Json.collect wireFields fields :=
    Json.collect_congr (hspelt.imp fun _ _ h => ⟨h.1, h.fieldIndex?⟩)
  have hvalues : Json.collect wireFields fields = _ :=
    hrenamed.symm.trans
      ((Json.collect_perm (orderly_wireFields hplain) hperm).symm.trans (collect_wireFields hplain))
  change (Json.collect wireFields fields >>= _) = _
  rw [hvalues]
  obtain ⟨id, source, sourcePort, target, targetPort⟩ := e
  cases sourcePort <;> cases targetPort <;> rfl

end Edge

/-- Edges with ids are not numbered. -/
theorem numberEdges_loose (next : Nat) (edges : List Edge) :
    numberEdges next (edges.map Edge.loose) = (edges, next) := by
  induction edges with
  | nil => rfl
  | cons e rest ih =>
    have hnext : (if e.loose.id.isNone then next + 1 else next) = next := rfl
    simp only [List.map_cons, numberEdges, hnext, ih]
    rfl

/-! ## Graphs -/

theorem LooseGraph.readFields_nodes_edges (nodes edges : List Json) :
    readFields [("nodes", .list nodes), ("edges", .list edges)] =
      (nodes.mapM Node.decode >>= fun ns =>
        edges.mapM LooseEdge.decode >>= fun es => .ok ⟨some ns, some es⟩) := by
  cases hnodes : nodes.mapM Node.decode with
  | error e =>
    simp [readFields, readField, Json.decodeList, hnodes, bind, Except.bind]
  | ok ns =>
    cases hedges : edges.mapM LooseEdge.decode <;>
      simp [readFields, readField, Json.decodeList, hnodes, hedges, bind, Except.bind, pure,
        Except.pure]

namespace Graph

/-- The forms of a graph: its nodes and edges, each in a form of its own. -/
def WrittenAs (g : Graph) (v : Json) : Prop :=
  ∃ nodes edges, List.Forall₂ Node.WrittenAs g.nodes nodes ∧
    List.Forall₂ Edge.WrittenAs g.edges edges ∧
    v = .record [("nodes", .list nodes), ("edges", .list edges)]

theorem writtenAs_toJson (g : Graph) : g.WrittenAs g.toJson := by
  refine ⟨_, _, ?_, ?_, rfl⟩
  · exact List.forall₂_map_right_iff.mpr (List.forall₂_same.mpr fun n _ => n.writtenAs_toJson)
  · exact List.forall₂_map_right_iff.mpr (List.forall₂_same.mpr fun e _ => e.writtenAs_toJson)

/-- A graph whose values its JSON form can hold. -/
def Storable (g : Graph) : Prop :=
  ∀ n ∈ g.nodes, ∀ entry ∈ n.parameters.entries, entry.2.Storable

instance (g : Graph) : Decidable g.Storable :=
  inferInstanceAs (Decidable (∀ n ∈ g.nodes, ∀ entry ∈ n.parameters.entries, entry.2.Storable))

/-- Every form of a graph is read as its edges with its nodes, as they are read. -/
theorem decode_of_writtenAs {g : Graph} {v : Json} (h : g.WrittenAs v) (next : Nat) :
    Graph.decode v next =
      (g.nodes.mapM Node.reread).map fun nodes => (⟨nodes, g.edges⟩, next) := by
  obtain ⟨nodes, edges, hnodes, hedges, rfl⟩ := h
  have hreadNodes := mapM_congr_of_forall₂ (hnodes.imp fun _ _ h => Node.decode_of_writtenAs h)
  have hreadEdges : edges.mapM LooseEdge.decode = .ok (g.edges.map Edge.loose) := by
    rw [mapM_eq_ok, List.forall₂_map_right_iff]
    exact (hedges.imp fun _ _ h => Edge.decode_of_writtenAs h).flip
  have hnumber : ∀ ns, LooseGraph.number ⟨some ns, some (g.edges.map Edge.loose)⟩ next =
      (⟨ns, g.edges⟩, next) := by
    intro ns
    simp only [LooseGraph.number, Option.getD_some, numberEdges_loose]
  rw [Graph.decode, LooseGraph.decode, LooseGraph.readFields_nodes_edges, hreadNodes, hreadEdges]
  cases g.nodes.mapM Node.reread with
  | error e => rfl
  | ok ns => exact congrArg Except.ok (hnumber ns)

theorem decode_toJson {g : Graph} (h : g.Storable) (next : Nat) :
    Graph.decode g.toJson next = .ok (g, next) := by
  have hnodes : g.nodes.mapM Node.reread = .ok g.nodes := by
    rw [mapM_eq_ok, List.forall₂_same]
    intro n hn
    rw [Node.reread, decodeParameters_toJson (h n hn)]
    rfl
  rw [decode_of_writtenAs g.writtenAs_toJson, hnodes]
  rfl

end Graph

/-- A graph is read back from its JSON form, every value with its kind, and no edge is numbered.
Each other form of the graph is read as this one: under the other names of the fields of edges,
and with fields beside those of the plain form of a node that can be read and give way to them. -/
theorem graph_json_round_trip (g : Graph) (next : Nat) :
    (g.Storable → Graph.decode g.toJson next = .ok (g, next)) ∧
      ∀ v, g.WrittenAs v → Graph.decode v next = Graph.decode g.toJson next := by
  refine ⟨fun h => Graph.decode_toJson h next, fun v hv => ?_⟩
  rw [Graph.decode_of_writtenAs hv, Graph.decode_of_writtenAs g.writtenAs_toJson]

/-- A node with a value of each kind, a whole float, the negative zero and an empty vector among
them, and an edge that names one of its ports. -/
def keptGraph : Graph where
  nodes := [⟨"mix", "noise", .ofList [("count", .int 2), ("offsets", .vector []),
    ("scale", .float (.finite false ⟨0x4000000000000000, by decide⟩)),
    ("shift", .vector [.finite true ⟨0, by decide⟩]), ("style", .text "2"), ("tile", .bool true)]⟩,
    ⟨"out", "output", ∅⟩]
  edges := [⟨"e1", "mix", some "value", "out", none⟩]

/-- The graph as an editor writes it: one node has a rendering tag and data that disagree with its
plain form, and the edge has the editor's names. -/
def keptGraphJson : Json :=
  .record [
    ("nodes", .list [
      .record [
        ("type", .text "custom"),
        ("parameters", .null),
        ("data", .record [("type", .text "blur"), ("parameters", .record [])]),
        ("id", .text "mix"),
        ("typeId", .text "noise"),
        ("parameterValues", .record [
          ("count", .int 2), ("offsets", .list []), ("scale", .real ⟨false, 2, 0⟩),
          ("shift", .list [.real ⟨true, 0, 0⟩]), ("style", .text "2"), ("tile", .bool true)])],
      .record [("id", .text "out"), ("typeId", .text "output"), ("parameterValues", .record [])]]),
    ("edges", .list [
      .record [("id", .text "e1"), ("source", .text "mix"), ("sourceHandle", .text "value"),
        ("target", .text "out")]])]

theorem keptGraph_writtenAs : keptGraph.WrittenAs keptGraphJson := by
  have hscale : Json.real ⟨false, 2, 0⟩ =
      (Binary.finite false ⟨0x4000000000000000, by decide⟩ : Double).toJson :=
    congrArg Json.real (by decide +kernel)
  rw [keptGraphJson, hscale]
  refine ⟨_, _, .cons ?_ (.cons (Node.writtenAs_toJson _) .nil), .cons ?_ .nil, rfl⟩
  · refine ⟨_, ⟨some (.text "custom"), some .null, some (.record _), ?_, ?_, ?_⟩, _, rfl,
      List.perm_append_comm, rfl⟩
    all_goals exact ⟨_, rfl⟩
  · refine ⟨_, _, _, rfl, .refl _, ?_, rfl⟩
    exact .cons ⟨rfl, .inl rfl⟩ (.cons ⟨rfl, .inr (by decide)⟩
      (.cons ⟨rfl, .inr (by decide)⟩ (.cons ⟨rfl, .inr (by decide)⟩ .nil)))

theorem keptGraph_read_back : keptGraph.Storable ∧ keptGraph.WrittenAs keptGraphJson ∧
    Graph.decode keptGraphJson 3 = .ok (keptGraph, 3) := by
  have hstorable : keptGraph.Storable := by decide
  have hround := graph_json_round_trip keptGraph 3
  exact ⟨hstorable, keptGraph_writtenAs,
    (hround.2 _ keptGraph_writtenAs).trans (hround.1 hstorable)⟩

end NodeShader
