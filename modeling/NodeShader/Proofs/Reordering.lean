import NodeShader.Proofs.Validation

/-!
# Graphs listed in another order

A compilation looks at a graph through views that do not depend on the order of its lists: the
ascending ids, the first node of an id, the adjacency, and the edges ordered by their ends
(`Graph.Reorders.anonymous_sortedEdges`). Edge ids are never looked at. Where several nodes share
an id, the first of them depends on the order; but such a graph has an error, and no code.

* `compilation_order_independent`: graphs that list the same nodes and edges have the same code,
  and the same compilation altogether if their nodes have distinct ids.
-/

namespace NodeShader

/-- An edge without its id. -/
def Edge.anonymous (e : Edge) : Edge := { e with id := "" }

/-- The second graph lists the nodes of the first and, under any ids, its edges. -/
structure Graph.Reorders (g g' : Graph) : Prop where
  nodes : g'.nodes.Perm g.nodes
  edges : (g'.edges.map Edge.anonymous).Perm (g.edges.map Edge.anonymous)

/-! ## The order of edges -/

namespace Edge

instance : Std.TransCmp Edge.compare := by
  unfold Edge.compare
  infer_instance

theorem anonymous_eq_of_compare {a b : Edge} (h : Edge.compare a b = .eq) :
    a.anonymous = b.anonymous := by
  simp only [Edge.compare, compareLex_eq_eq, compareOn, Std.LawfulEqCmp.compare_eq_iff_eq] at h
  obtain ⟨htarget, htargetPort, hsource, hsourcePort⟩ := h
  simp [anonymous, htarget, htargetPort, hsource, hsourcePort]

end Edge

namespace Graph

variable {r : Registry} {g g' : Graph}

theorem pairwise_sortedEdges (g : Graph) :
    g.sortedEdges.Pairwise fun a b => (Edge.compare a b).isLE = true := by
  refine List.pairwise_mergeSort (fun a b c => Std.TransCmp.isLE_trans) (fun a b => ?_) _
  have hswap : Edge.compare b a = (Edge.compare a b).swap := Std.OrientedCmp.eq_swap
  rw [hswap]
  cases Edge.compare a b <;> rfl

namespace Reorders

/-- The edges come in the same order, whatever their ids. -/
theorem anonymous_sortedEdges (h : g.Reorders g') :
    g'.sortedEdges.map Edge.anonymous = g.sortedEdges.map Edge.anonymous := by
  have hsorted (k : Graph) : (k.sortedEdges.map Edge.anonymous).Pairwise
      fun a b => (Edge.compare a b).isLE = true :=
    List.pairwise_map.mpr (pairwise_sortedEdges k)
  have hperm : (g'.sortedEdges.map Edge.anonymous).Perm (g.sortedEdges.map Edge.anonymous) :=
    ((g'.sortedEdges_perm.map _).trans h.edges).trans (g.sortedEdges_perm.map _).symm
  refine hperm.eq_of_pairwise (fun a b ha hb hab hba => ?_) (hsorted g') (hsorted g)
  obtain ⟨a, -, rfl⟩ := List.mem_map.mp ha
  obtain ⟨b, -, rfl⟩ := List.mem_map.mp hb
  exact Edge.anonymous_eq_of_compare (Std.OrientedCmp.isLE_antisymm hab hba)

/-! ## Views of a graph -/

theorem nodup (h : g.Reorders g') :
    (g'.nodes.map Node.id).Nodup ↔ (g.nodes.map Node.id).Nodup := (h.nodes.map _).nodup_iff

theorem ids (h : g.Reorders g') : g'.ids = g.ids :=
  ascendingIds_congr fun _ => (h.nodes.map _).mem_iff

theorem outputIds (h : g.Reorders g') : g'.outputIds r = g.outputIds r :=
  ascendingIds_congr fun _ => ((h.nodes.filter _).map _).mem_iff

theorem feeds (h : g.Reorders g') {a b : String} : g'.Feeds a b ↔ g.Feeds a b := by
  have hedge {k k' : Graph} (hk : (k.edges.map Edge.anonymous).Perm (k'.edges.map Edge.anonymous)) :
      (∃ e ∈ k.edges, e.source = a ∧ e.target = b) →
        ∃ e ∈ k'.edges, e.source = a ∧ e.target = b := by
    rintro ⟨e, he, rfl, rfl⟩
    obtain ⟨e', he', heq⟩ := List.mem_map.mp (hk.mem_iff.mp (List.mem_map.mpr ⟨e, he, rfl⟩))
    have hsource := congrArg Edge.source heq
    have htarget := congrArg Edge.target heq
    exact ⟨e', he', hsource, htarget⟩
  rw [Feeds, Feeds, h.ids]
  exact and_congr_right fun _ => and_congr_right fun _ => ⟨hedge h.edges, hedge h.edges.symm⟩

theorem adjacency (h : g.Reorders g') : g'.adjacency = g.adjacency := by
  have hlinks (l : String × String) : l ∈ g'.links ↔ l ∈ g.links := by
    rw [mem_links, mem_links, h.feeds]
  simp only [Graph.adjacency, h.ids]
  congr 2 <;>
  · funext id
    refine congrArg (Prod.mk id) (ascendingIds_congr fun other => ?_)
    simp only [List.mem_map, List.mem_filter, hlinks]

theorem schedule (h : g.Reorders g') (prune : Bool) : g'.schedule r prune = g.schedule r prune := by
  rw [Graph.schedule, Graph.schedule, topologicalOrder, topologicalOrder, h.adjacency, h.outputIds]

/-- Where ids are distinct, an id means the same node. -/
theorem node? (h : g.Reorders g') (hd : (g.nodes.map Node.id).Nodup) : g'.node? = g.node? := by
  funext id
  refine Option.ext fun n => ?_
  rw [node?_eq_some_iff hd, node?_eq_some_iff (h.nodup.mpr hd), h.nodes.mem_iff]

theorem typeOf? (h : g.Reorders g') (hd : (g.nodes.map Node.id).Nodup) :
    g'.typeOf? r = g.typeOf? r := by
  funext id
  rw [Graph.typeOf?, Graph.typeOf?, h.node? hd]

theorem resolve (h : g.Reorders g') (hd : (g.nodes.map Node.id).Nodup) (e : Edge) :
    e.resolve r g' = e.resolve r g := by
  have hendpoint : endpoint r g' = endpoint r g := by
    funext id
    rw [endpoint, endpoint, h.node? hd]
  rw [Edge.resolve, Edge.resolve, hendpoint]

theorem filterMap_sortedEdges {α : Type} (h : g.Reorders g') {f : Edge → Option α}
    (hf : ∀ e, f e.anonymous = f e) : g'.sortedEdges.filterMap f = g.sortedEdges.filterMap f := by
  have hview (k : Graph) : k.sortedEdges.filterMap f =
      (k.sortedEdges.map Edge.anonymous).filterMap f := by
    rw [List.filterMap_map]
    exact congrArg (k.sortedEdges.filterMap ·) (funext fun e => (hf e).symm)
  rw [hview, hview, h.anonymous_sortedEdges]

theorem mapM_sortedEdges {ε α : Type} (h : g.Reorders g') {p : Edge → Bool}
    {f : Edge → Except ε α} (hp : ∀ e, p e.anonymous = p e) (hf : ∀ e, f e.anonymous = f e) :
    (g'.sortedEdges.filter p).mapM f = (g.sortedEdges.filter p).mapM f := by
  have hview (k : Graph) : (k.sortedEdges.filter p).mapM f =
      ((k.sortedEdges.map Edge.anonymous).filter p).mapM f := by
    rw [List.filter_map, List.mapM_map, show p ∘ Edge.anonymous = p from funext hp,
      show f ∘ Edge.anonymous = f from funext hf]
  rw [hview, hview, h.anonymous_sortedEdges]

theorem connections (h : g.Reorders g') (hd : (g.nodes.map Node.id).Nodup) :
    g'.connections r = g.connections r := by
  simp only [Graph.connections, h.resolve hd]
  exact h.filterMap_sortedEdges fun _ => rfl

/-! ## Validation and emission -/

theorem duplicateIds (h : g.Reorders g') : g'.duplicateIds = g.duplicateIds := by
  simp only [Graph.duplicateIds, h.ids, h.nodes.countP_eq]

theorem distinctNodes (h : g.Reorders g') (hd : (g.nodes.map Node.id).Nodup) :
    g'.distinctNodes = g.distinctNodes := by
  rw [Graph.distinctNodes, Graph.distinctNodes, h.ids, h.node? hd]

theorem typedNodes (h : g.Reorders g') (hd : (g.nodes.map Node.id).Nodup) :
    g'.typedNodes r = g.typedNodes r := by
  rw [Graph.typedNodes, Graph.typedNodes, h.distinctNodes hd]

theorem unresolvedEdges (h : g.Reorders g') (hd : (g.nodes.map Node.id).Nodup) :
    g'.unresolvedEdges r = g.unresolvedEdges r := by
  simp only [Graph.unresolvedEdges, h.resolve hd]
  exact h.filterMap_sortedEdges fun _ => rfl

theorem connectedInputs (h : g.Reorders g') (hd : (g.nodes.map Node.id).Nodup) :
    g'.connectedInputs r = g.connectedInputs r := by
  rw [Graph.connectedInputs, Graph.connectedInputs, h.connections hd, h.typedNodes hd]

theorem planProblems (h : g.Reorders g') (hd : (g.nodes.map Node.id).Nodup) :
    g'.planProblems r = g.planProblems r := by
  rw [Graph.planProblems, Graph.planProblems, outputCount, outputCount, h.typedNodes hd, h.schedule]

/-- The diagnostics are the same, in the same order. -/
theorem validate (h : g.Reorders g') (hd : (g.nodes.map Node.id).Nodup) :
    g'.validate r = g.validate r := by
  have hunknown : g'.unknownTypes r = g.unknownTypes r := by
    rw [unknownTypes, unknownTypes, h.distinctNodes hd]
  have hunconnected : g'.unconnectedInputs r = g.unconnectedInputs r := by
    rw [unconnectedInputs, unconnectedInputs, h.connections hd, h.typedNodes hd]
  have hcrowded : g'.crowdedInputs r = g.crowdedInputs r := by
    rw [crowdedInputs, crowdedInputs, h.connectedInputs hd]
  have hmismatches : g'.typeMismatches r = g.typeMismatches r := by
    rw [typeMismatches, typeMismatches, h.connectedInputs hd]
  have hparameters : g'.invalidParameters r = g.invalidParameters r := by
    rw [invalidParameters, invalidParameters, h.typedNodes hd]
  rw [Graph.validate, Graph.validate, h.duplicateIds, hunknown, h.unresolvedEdges hd, hunconnected,
    hcrowded, hmismatches, hparameters, outputCount, outputCount, h.typedNodes hd,
    h.planProblems hd]

theorem stems (h : g.Reorders g') (hd : (g.nodes.map Node.id).Nodup) :
    g'.stems r = g.stems r := by
  rw [Graph.stems, Graph.stems, h.ids, h.typeOf? hd]

theorem incomingVariables (h : g.Reorders g') (hd : (g.nodes.map Node.id).Nodup) (stems : Stems)
    (node : String) : incomingVariables r g' stems node = incomingVariables r g stems node := by
  simp only [NodeShader.incomingVariables, h.resolve hd]
  exact h.mapM_sortedEdges (fun _ => rfl) fun _ => rfl

theorem fragment (h : g.Reorders g') (hd : (g.nodes.map Node.id).Nodup) (stems : Stems) :
    g'.fragment r stems = g.fragment r stems := by
  have hbind : bindInputs r g' stems = bindInputs r g stems := by
    funext node t
    rw [bindInputs, bindInputs, h.incomingVariables hd]
  funext id
  rw [Graph.fragment, Graph.fragment, h.node? hd, hbind]

theorem emit (h : g.Reorders g') (hd : (g.nodes.map Node.id).Nodup) (entry : EntryPoint)
    (s : Schedule) : g'.emit r entry s = g.emit r entry s := by
  rw [Graph.emit, Graph.emit, h.stems hd, h.fragment hd]

theorem generate (h : g.Reorders g') (hd : (g.nodes.map Node.id).Nodup) (c : Compiler) :
    c.generate g' = c.generate g := by
  simp only [Compiler.generate, h.schedule, h.emit hd]

end Reorders

/-- Nothing is written for a graph with an error. -/
theorem artifact_of_error {c : Compiler} (check : String → Glsl.SourceReport)
    (h : errorsOf (g.validate c.registry) ≠ []) :
    (c.compileAndValidate g check).artifact.code = "" ∧
      (c.compileAndValidate g check).artifact.uniforms = [] ∧
      (c.compileAndValidate g check).artifact.functions = [] := by
  have hne : (errorsOf (g.validate c.registry)).isEmpty = false := by simpa using h
  simp [Compiler.compileAndValidate, hne, Artifact.failed]

theorem errors_of_duplicates (h : ¬ (g.nodes.map Node.id).Nodup) :
    errorsOf (g.validate r) ≠ [] := fun hnone =>
  h (duplicateIds_eq_nil_iff.mp (errorsOf_validate_eq_nil_iff.mp hnone).1)

end Graph

/-- A compilation does not depend on the order in which a graph lists its nodes and edges, nor on
the ids of the edges, whatever checks the text. The code, the uniforms and the functions are the
same even if nodes share an id; if none do, so is everything else that comes of a compilation, with
or without validation. -/
theorem compilation_order_independent (c : Compiler) {g g' : Graph} (h : g.Reorders g')
    (check : String → Glsl.SourceReport) :
    (c.compileAndValidate g' check).artifact.code =
      (c.compileAndValidate g check).artifact.code ∧
    (c.compileAndValidate g' check).artifact.uniforms =
      (c.compileAndValidate g check).artifact.uniforms ∧
    (c.compileAndValidate g' check).artifact.functions =
      (c.compileAndValidate g check).artifact.functions ∧
    ((g.nodes.map Node.id).Nodup →
      c.compileAndValidate g' check = c.compileAndValidate g check ∧
        c.compile g' = c.compile g) := by
  by_cases hd : (g.nodes.map Node.id).Nodup
  · have hgenerate := h.generate hd c
    have hcompile : c.compile g' = c.compile g := by
      rw [Compiler.compile, Compiler.compile, hgenerate]
    have hall : c.compileAndValidate g' check = c.compileAndValidate g check := by
      simp only [Compiler.compileAndValidate, Compiler.compileChecked, h.validate hd, hgenerate]
    rw [hall]
    exact ⟨rfl, rfl, rfl, fun _ => ⟨rfl, hcompile⟩⟩
  · obtain ⟨hcode, huniforms, hfunctions⟩ :=
      Graph.artifact_of_error check (Graph.errors_of_duplicates (r := c.registry) hd)
    obtain ⟨hcode', huniforms', hfunctions'⟩ := Graph.artifact_of_error check
      (Graph.errors_of_duplicates (r := c.registry) (mt h.nodup.mp hd))
    rw [hcode, hcode', huniforms, huniforms', hfunctions, hfunctions']
    exact ⟨rfl, rfl, rfl, fun hnodup => absurd hnodup hd⟩

/-- A color mixed with itself. -/
def mixedGraph : Graph :=
  { nodes := [⟨"c", "color_picker", ∅⟩, ⟨"m", "mix_colors", ∅⟩, ⟨"o", "fragment_output", ∅⟩]
    edges := [⟨"1", "c", none, "m", none⟩, ⟨"2", "c", some "color", "m", some "colorB"⟩,
      ⟨"3", "m", none, "o", some "color"⟩] }

/-- The same graph from back to front, two of its edges under one id. -/
def mixedGraphReversed : Graph :=
  { nodes := [⟨"o", "fragment_output", ∅⟩, ⟨"m", "mix_colors", ∅⟩, ⟨"c", "color_picker", ∅⟩]
    edges := [⟨"a", "m", none, "o", some "color"⟩, ⟨"b", "c", some "color", "m", some "colorB"⟩,
      ⟨"b", "c", none, "m", none⟩] }

theorem mixed_compilation_order_independent :
    mixedGraph.Reorders mixedGraphReversed ∧ (mixedGraph.nodes.map Node.id).Nodup ∧
      Compiler.compileAndValidate {} mixedGraphReversed =
        Compiler.compileAndValidate {} mixedGraph ∧
      Compiler.compile {} mixedGraphReversed = Compiler.compile {} mixedGraph := by
  have h : mixedGraph.Reorders mixedGraphReversed := ⟨by decide +kernel, by decide +kernel⟩
  have hd : (mixedGraph.nodes.map Node.id).Nodup := by decide
  exact ⟨h, hd, (compilation_order_independent {} h (Glsl.checkSource .grammar)).2.2.2 hd⟩

end NodeShader
