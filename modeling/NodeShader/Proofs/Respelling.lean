import NodeShader.Proofs.Emission

/-!
# Other handles for the same ports

A port has several handles: its name, its positional handles with or without leading zeros, and
for the first port no handle at all. Edges are ordered by the text of their handles, so other
handles bring the connections of a graph in another order. In a graph without errors no input has
two connections (`Graph.length_connectionsInto_le_one`), so nothing that is looked up by input
depends on that order (`Graph.Respells.connectionsInto`).

* `compilation_spelling_independent`: a graph without errors compiles to the same under any
  handles for its ports.
-/

namespace NodeShader

namespace Edge

/-- The position of the output port that the edge begins at. -/
def outputIndex? (r : Registry) (g : Graph) (e : Edge) : Option Nat :=
  (g.typeOf? r e.source).bind fun t => resolveHandle t.outputs .output e.sourcePort

/-- The position of the input port that the edge ends at. -/
def inputIndex? (r : Registry) (g : Graph) (e : Edge) : Option Nat :=
  (g.typeOf? r e.target).bind fun t => resolveHandle t.inputs .input e.targetPort

/-- The second edge joins the same ports of the same nodes as the first, by whatever handles. -/
structure Respells (r : Registry) (g : Graph) (e e' : Edge) : Prop where
  source : e'.source = e.source
  target : e'.target = e.target
  output : e'.outputIndex? r g = e.outputIndex? r g
  input : e'.inputIndex? r g = e.inputIndex? r g

end Edge

/-- The second graph is the first with other handles for the ports of its edges. -/
structure Graph.Respells (r : Registry) (g g' : Graph) : Prop where
  nodes : g'.nodes = g.nodes
  edges : List.Forall₂ (Edge.Respells r g) g.edges g'.edges

theorem eq_of_perm_of_length_le_one {α : Type} {xs ys : List α} (h : xs.Perm ys)
    (hlength : ys.length ≤ 1) : xs = ys := by
  match ys with
  | [] => exact h.eq_nil
  | [y] => exact List.perm_singleton.mp h
  | _ :: _ :: _ => simp at hlength

/-! ## Connections of a graph without errors -/

/-- An edge resolves to the connection of the positions of its ports. -/
theorem Edge.resolve_eq_ok_iff_index {r : Registry} {g : Graph} {e : Edge} {c : Connection} :
    e.resolve r g = .ok c ↔
      ∃ source target i, g.typeOf? r e.source = some source ∧ g.typeOf? r e.target = some target ∧
        e.outputIndex? r g = some i ∧ source.outputs[i]? = some c.sourcePort ∧
        e.inputIndex? r g = some c.targetIndex ∧
        target.inputs[c.targetIndex]? = some c.targetPort ∧
        c.source = e.source ∧ c.target = e.target := by
  rw [resolve_eq_ok_iff]
  refine exists_congr fun source => exists_congr fun target => exists_congr fun i => ?_
  refine and_congr_right fun hs => and_congr_right fun ht => ?_
  rw [outputIndex?, inputIndex?, hs, ht, Option.bind_some, Option.bind_some]

/-- No input of a graph without errors has two connections. -/
theorem Graph.length_connectionsInto_le_one {r : Registry} {g : Graph}
    (hvalid : errorsOf (g.validate r) = []) (id : String) (index : Nat) :
    (connectionsInto (g.connections r) id index).length ≤ 1 := by
  obtain ⟨-, -, -, -, hcrowded, -⟩ := errorsOf_validate_eq_nil_iff.mp hvalid
  by_cases hnone : connectionsInto (g.connections r) id index = []
  · rw [hnone]
    exact Nat.zero_le 1
  · -- a connection ends at an input that there is, and the check has looked at it
    obtain ⟨c, hc⟩ := List.exists_mem_of_ne_nil _ hnone
    obtain ⟨hmem, rfl, rfl⟩ := mem_connectionsInto.mp hc
    obtain ⟨n, t, hnt, hid, hindex, -⟩ := exists_typedNode_of_mem_connections hmem
    rw [← hid]
    exact crowdedInputs_eq_nil_iff.mp hcrowded n t hnt c.targetIndex hindex

/-- Where every edge resolves, the expressions for the inputs of a node are those for its
connections. -/
theorem bindInputs_eq_connections {r : Registry} {g : Graph} (stems : Stems) (node : String)
    (t : NodeType) (hall : ∀ e ∈ g.edges, ∃ c, e.resolve r g = .ok c) :
    bindInputs r g stems node t = t.inputs.zipIdx.mapM fun (port, index) => do
      let sources := (Graph.connectionsInto (g.connections r) node index).map
        (Connection.variable stems)
      return (port.name, ← inputExpression node port sources) := by
  cases hincoming : incomingVariables r g stems node with
  | error err =>
    obtain ⟨e, he, -, p, hp, -⟩ := incomingVariables_error hincoming
    obtain ⟨c, hc⟩ := hall e he
    rw [hp] at hc
    cases hc
  | ok incoming =>
    rw [bindInputs, hincoming]
    refine congrArg (fun f => t.inputs.zipIdx.mapM f) (funext fun x => ?_)
    dsimp only
    rw [sources_into hincoming]

/-! ## Views of a graph -/

namespace Graph.Respells

variable {r : Registry} {g g' : Graph}

theorem node? (h : g.Respells r g') : g'.node? = g.node? := by
  funext id
  rw [Graph.node?, Graph.node?, h.nodes]

theorem typeOf? (h : g.Respells r g') : g'.typeOf? r = g.typeOf? r := by
  funext id
  rw [Graph.typeOf?, Graph.typeOf?, h.node?]

theorem ids (h : g.Respells r g') : g'.ids = g.ids := by
  rw [Graph.ids, Graph.ids, h.nodes]

theorem links (h : g.Respells r g') : g'.links = g.links := by
  have hends : g'.edges.map (fun e => (e.source, e.target)) =
      g.edges.map (fun e => (e.source, e.target)) :=
    map_eq_of_forall₂ (h.edges.imp fun e e' he => by rw [he.source, he.target])
  have hview (k : Graph) : k.links = (k.edges.map fun e => (e.source, e.target)).filter
      fun l => k.ids.contains l.1 && k.ids.contains l.2 := by
    rw [List.filter_map]
    rfl
  rw [hview, hview, hends, h.ids]

theorem schedule (h : g.Respells r g') (prune : Bool) :
    g'.schedule r prune = g.schedule r prune := by
  have hadjacency : g'.adjacency = g.adjacency := by
    rw [Graph.adjacency, Graph.adjacency, h.ids, h.links]
  have houtputs : g'.outputIds r = g.outputIds r := by
    rw [Graph.outputIds, Graph.outputIds, h.nodes]
  rw [Graph.schedule, Graph.schedule, topologicalOrder, topologicalOrder, hadjacency, houtputs]

/-- An edge and its respelling resolve to the same connection. -/
theorem resolve (h : g.Respells r g') {e e' : Edge} (he : e.Respells r g e') {c : Connection} :
    e'.resolve r g' = .ok c ↔ e.resolve r g = .ok c := by
  have houtput : e'.outputIndex? r g' = e.outputIndex? r g := by
    rw [← he.output, Edge.outputIndex?, Edge.outputIndex?, h.typeOf?]
  have hinput : e'.inputIndex? r g' = e.inputIndex? r g := by
    rw [← he.input, Edge.inputIndex?, Edge.inputIndex?, h.typeOf?]
  rw [Edge.resolve_eq_ok_iff_index, Edge.resolve_eq_ok_iff_index, houtput, hinput, h.typeOf?,
    he.source, he.target]

theorem resolves (h : g.Respells r g') (hall : ∀ e ∈ g.edges, ∃ c, e.resolve r g = .ok c) :
    ∀ e' ∈ g'.edges, ∃ c, e'.resolve r g' = .ok c := by
  intro e' he'
  obtain ⟨i, hi⟩ := List.getElem?_of_mem he'
  obtain ⟨e, he, hspelled⟩ := getElem?_of_forall₂ h.edges hi
  obtain ⟨c, hc⟩ := hall e (List.mem_of_getElem? he)
  exact ⟨c, (h.resolve hspelled).mpr hc⟩

/-- The connections are the same but for their order. -/
theorem connections_perm (h : g.Respells r g') : (g'.connections r).Perm (g.connections r) := by
  have hmap : g'.edges.map (fun e => (e.resolve r g').toOption) =
      g.edges.map fun e => (e.resolve r g).toOption := by
    refine map_eq_of_forall₂ (h.edges.imp fun e e' he => Option.ext fun c => ?_)
    rw [toOption_eq_some, toOption_eq_some, h.resolve he]
  have hview (k : Graph) :
      (k.connections r).Perm ((k.edges.map fun e => (e.resolve r k).toOption).filterMap id) := by
    rw [List.filterMap_map]
    exact k.sortedEdges_perm.filterMap _
  exact ((hview g').trans (.of_eq (by rw [hmap]))).trans (hview g).symm

/-- Every input has the same connections, since it has at most one. -/
theorem connectionsInto (h : g.Respells r g') (hvalid : errorsOf (g.validate r) = []) (id : String)
    (index : Nat) :
    Graph.connectionsInto (g'.connections r) id index =
      Graph.connectionsInto (g.connections r) id index :=
  eq_of_perm_of_length_le_one (h.connections_perm.filter _)
    (length_connectionsInto_le_one hvalid id index)

/-! ## Validation and emission -/

theorem typedNodes (h : g.Respells r g') : g'.typedNodes r = g.typedNodes r := by
  rw [Graph.typedNodes, Graph.typedNodes, distinctNodes, distinctNodes, h.ids, h.node?]

theorem connectedInputs (h : g.Respells r g') (hvalid : errorsOf (g.validate r) = []) :
    g'.connectedInputs r = g.connectedInputs r := by
  simp only [Graph.connectedInputs, h.typedNodes, h.connectionsInto hvalid]

/-- The diagnostics are the same, in the same order. -/
theorem validate (h : g.Respells r g') (hvalid : errorsOf (g.validate r) = []) :
    g'.validate r = g.validate r := by
  have hduplicates : g'.duplicateIds = g.duplicateIds := by
    rw [duplicateIds, duplicateIds, h.ids, h.nodes]
  have hunknown : g'.unknownTypes r = g.unknownTypes r := by
    rw [unknownTypes, unknownTypes, distinctNodes, distinctNodes, h.ids, h.node?]
  have hunresolved : g'.unresolvedEdges r = g.unresolvedEdges r := by
    obtain ⟨-, -, hnone, -⟩ := errorsOf_validate_eq_nil_iff.mp hvalid
    rw [hnone, unresolvedEdges_eq_nil_iff]
    exact fun e he => .inl (h.resolves (resolve_of_noErrors hvalid) e he)
  have hunconnected : g'.unconnectedInputs r = g.unconnectedInputs r := by
    simp only [unconnectedInputs, h.typedNodes, h.connectionsInto hvalid]
  have hcrowded : g'.crowdedInputs r = g.crowdedInputs r := by
    rw [crowdedInputs, crowdedInputs, h.connectedInputs hvalid]
  have hmismatches : g'.typeMismatches r = g.typeMismatches r := by
    rw [typeMismatches, typeMismatches, h.connectedInputs hvalid]
  have hparameters : g'.invalidParameters r = g.invalidParameters r := by
    rw [invalidParameters, invalidParameters, h.typedNodes]
  have hcount : g'.outputCount r = g.outputCount r := by
    rw [outputCount, outputCount, h.typedNodes]
  have hplan : g'.planProblems r = g.planProblems r := by
    rw [planProblems, planProblems, hcount, h.schedule]
  rw [Graph.validate, Graph.validate, hduplicates, hunknown, hunresolved, hunconnected, hcrowded,
    hmismatches, hparameters, hcount, hplan]

theorem bindInputs (h : g.Respells r g') (hvalid : errorsOf (g.validate r) = []) (stems : Stems) :
    bindInputs r g' stems = bindInputs r g stems := by
  have hall := resolve_of_noErrors hvalid
  funext node t
  simp only [bindInputs_eq_connections stems node t hall,
    bindInputs_eq_connections stems node t (h.resolves hall), h.connectionsInto hvalid]

theorem emit (h : g.Respells r g') (hvalid : errorsOf (g.validate r) = []) (entry : EntryPoint)
    (s : Schedule) : g'.emit r entry s = g.emit r entry s := by
  have hstems : g'.stems r = g.stems r := by
    rw [Graph.stems, Graph.stems, h.ids, h.typeOf?]
  have hfragment : g'.fragment r (g.stems r) = g.fragment r (g.stems r) := by
    funext id
    rw [Graph.fragment, Graph.fragment, h.node?, h.bindInputs hvalid]
  rw [Graph.emit, Graph.emit, hstems, hfragment]

end Graph.Respells

/-- A graph without errors may name its ports by any handles that mean them. Whatever checks the
text, the compilation is the same: code, uniforms, functions and warnings, and all diagnostics and
suggestions. -/
theorem compilation_spelling_independent (c : Compiler) {g g' : Graph}
    (hvalid : errorsOf (g.validate c.registry) = []) (h : g.Respells c.registry g')
    (check : String → Glsl.SourceReport) :
    c.compileAndValidate g' check = c.compileAndValidate g check := by
  have hgenerate : c.generate g' = c.generate g := by
    simp only [Compiler.generate, h.schedule, h.emit hvalid]
  simp only [Compiler.compileAndValidate, Compiler.compileChecked, h.validate hvalid, hgenerate]

/-- Two colors mixed by a constant, the ports under their names. -/
def namedGraph : Graph :=
  { nodes := [⟨"c", "color_picker", ∅⟩, ⟨"f", "float_constant", ∅⟩, ⟨"m", "mix_colors", ∅⟩,
      ⟨"o", "fragment_output", ∅⟩]
    edges := [⟨"1", "c", some "color", "m", some "colorA"⟩,
      ⟨"2", "c", some "color", "m", some "colorB"⟩, ⟨"3", "f", some "value", "m", some "factor"⟩,
      ⟨"4", "m", some "result", "o", some "color"⟩] }

/-- The same graph by position; its edges into the mix come in the opposite order. -/
def positionalGraph : Graph :=
  { nodes := namedGraph.nodes
    edges := [⟨"1", "c", none, "m", some "input1"⟩, ⟨"2", "c", some "output001", "m",
      some "input+02"⟩, ⟨"3", "f", some "output", "m", some "factor"⟩,
      ⟨"4", "m", none, "o", none⟩] }

theorem positional_compilation :
    errorsOf (namedGraph.validate .catalog) = [] ∧ namedGraph.Respells .catalog positionalGraph ∧
      Compiler.compileAndValidate {} positionalGraph =
        Compiler.compileAndValidate {} namedGraph := by
  have hsorted : namedGraph.sortedEdges = namedGraph.edges :=
    Graph.sortedEdges_of_pairwise (by decide)
  have hvalid : errorsOf (namedGraph.validate .catalog) = [] := by
    simp only [Graph.validate, Graph.unresolvedEdges, Graph.unconnectedInputs,
      Graph.crowdedInputs, Graph.typeMismatches, Graph.connectedInputs, Graph.connections, hsorted]
    decide +kernel
  have h : namedGraph.Respells .catalog positionalGraph := by
    refine ⟨rfl, .cons ?_ (.cons ?_ (.cons ?_ (.cons ?_ .nil)))⟩ <;>
      exact ⟨rfl, rfl, by decide +kernel, by decide +kernel⟩
  exact ⟨hvalid, h, compilation_spelling_independent {} hvalid h (Glsl.checkSource .grammar)⟩

end NodeShader
