import Mathlib.Data.List.Flatten
import NodeShader.Proofs.Emission

/-!
# Pruning

Nothing that is written for a node depends on which other nodes are scheduled, and the nodes that
pruning keeps stand in the full order too, since no output node that was not chosen has a path to
the chosen one (`Graph.eq_output_of_path`). So the pruned order is the full one without the nodes
that have no path to the output (`Graph.order_pruned`), and so are the fragments
(`Graph.fragments_filter`).

* `pruning_only_deletes`: a pruned shader is the full one with statements, uniforms and functions
  left out.
-/

namespace NodeShader

open Relation (ReflTransGen)

namespace Graph

variable {r : Registry} {g : Graph}

/-- Pruning leaves out the nodes without a path to the output, and no others. -/
theorem order_pruned {pruned full : Schedule} (hpruned : g.schedule r true = .ok pruned)
    (hfull : g.schedule r false = .ok full) (houtput : pruned.output = full.output) :
    pruned.order = full.order.filter fun id => decide (ReflTransGen g.Feeds id full.output) := by
  obtain ⟨order, horder, -, hkept⟩ := schedule_ok hpruned
  obtain ⟨other, hother, -, hkept'⟩ := schedule_ok hfull
  have hsame : order = other := by
    rw [horder] at hother
    cases hother
    rfl
  have ho : full.output ∈ g.ids := outputIds_subset (output_mem_outputIds hfull)
  rw [hkept, hkept', ← hsame, houtput, List.filter_filter]
  refine List.filter_congr fun id _ => Bool.eq_iff_iff.mpr ?_
  rw [isKept_true ho, Bool.and_eq_true, decide_eq_true_iff, isKept_false]
  constructor
  · intro hpath
    refine ⟨hpath, or_iff_not_imp_right.mpr fun hout => ?_⟩
    exact eq_output_of_path hfull (not_not.mp hout) hpath
  · exact And.left

/-- The fragments of some of the nodes of an order are among its fragments, with the statements
of these nodes. -/
theorem fragments_filter {stems : Stems} {order : List String} {fragments : List Fragment}
    (hall : List.Forall₂ (fun id f => g.fragment r stems id = .ok f) order fragments)
    (p : String → Bool) :
    ∃ kept, List.Forall₂ (fun id f => g.fragment r stems id = .ok f) (order.filter p) kept ∧
      kept.Sublist fragments ∧
      kept.filterMap Fragment.statement =
        (fragments.filterMap Fragment.statement).filter fun statement => p statement.node := by
  induction hall with
  | nil => exact ⟨[], .nil, .slnil, rfl⟩
  | @cons id f order fragments hf _ ih =>
    obtain ⟨kept, hkept, hsublist, hstatements⟩ := ih
    have hnode (statement : Statement) (hs : f.statement = some statement) :
        statement.node = id := node_of_statement hf hs
    by_cases hp : p id = true
    · rw [List.filter_cons_of_pos hp]
      refine ⟨f :: kept, .cons hf hkept, hsublist.cons_cons f, ?_⟩
      cases hs : f.statement with
      | none => rw [List.filterMap_cons_none hs, List.filterMap_cons_none hs, hstatements]
      | some statement =>
        have hkeep : p statement.node = true := by rw [hnode statement hs, hp]
        rw [List.filterMap_cons_some hs, List.filterMap_cons_some hs, List.filter_cons,
          if_pos hkeep, hstatements]
    · rw [List.filter_cons_of_neg hp]
      refine ⟨kept, hkept, hsublist.cons f, ?_⟩
      cases hs : f.statement with
      | none => rw [List.filterMap_cons_none hs, hstatements]
      | some statement =>
        have hdrop : ¬ p statement.node = true := by rwa [hnode statement hs]
        rw [List.filterMap_cons_some hs, List.filter_cons, if_neg hdrop, hstatements]

/-- What is written for a part of an order. -/
theorem emit_filter {entry : EntryPoint} {s part : Schedule} {p : String → Bool} {shader : Shader}
    (hpart : part.order = s.order.filter p) (h : g.emit r entry s = .ok shader) :
    ∃ less, g.emit r entry part = .ok less ∧
      less.statements = shader.statements.filter (fun statement => p statement.node) ∧
      less.uniforms.Sublist shader.uniforms ∧ less.functions.Sublist shader.functions := by
  obtain ⟨fragments, functions, hall, hfunctions, rfl⟩ := emit_eq_ok_iff.mp h
  obtain ⟨kept, hkept, hsublist, hstatements⟩ := fragments_filter hall p
  have hneeds : ∀ name ∈ (neededHelpers kept).map Prod.fst,
      name ∈ (neededHelpers fragments).map Prod.fst := by
    intro name hname
    obtain ⟨f, hf, hhelper⟩ := mem_neededHelpers.mp hname
    exact mem_neededHelpers.mpr ⟨f, hsublist.subset hf, hhelper⟩
  obtain ⟨fewer, hfewer, hfunctionsSublist⟩ := Registry.helpersFor_mono hneeds hfunctions
  have huniformsSublist : (builtinUniforms ++ kept.flatMap Fragment.uniforms).Sublist
      (builtinUniforms ++ fragments.flatMap Fragment.uniforms) :=
    (hsublist.flatMap _).append_left _
  rw [← hpart] at hkept
  exact ⟨assembled r entry kept fewer, emit_eq_ok_iff.mpr ⟨kept, fewer, hkept, hfewer, rfl⟩,
    hstatements, huniformsSublist, hfunctionsSublist⟩

end Graph

/-- Pruning only deletes. There is a pruned schedule exactly if there is a full one, with the same
output and the same unused groups. If the full one can be written, so can the pruned one: its
statements are those of the nodes with a path to the output, in the same order, and its uniforms
and functions are among the others', in the same order. -/
theorem pruning_only_deletes (r : Registry) (entry : EntryPoint) (g : Graph) :
    ((∃ pruned, g.schedule r true = .ok pruned) ↔ ∃ full, g.schedule r false = .ok full) ∧
    ∀ pruned full, g.schedule r true = .ok pruned → g.schedule r false = .ok full →
      pruned.output = full.output ∧ pruned.unusedGroups = full.unusedGroups ∧
      ∀ shader, g.emit r entry full = .ok shader → ∃ less, g.emit r entry pruned = .ok less ∧
        less.statements = shader.statements.filter (fun statement =>
          decide (ReflTransGen g.Feeds statement.node full.output)) ∧
        less.uniforms.Sublist shader.uniforms ∧ less.functions.Sublist shader.functions := by
  have hexists (prune other : Bool) :
      (∃ s, g.schedule r prune = .ok s) → ∃ s, g.schedule r other = .ok s := by
    rintro ⟨s, hs⟩
    have hmap := Graph.schedule_map_eq r g prune other
    rw [hs] at hmap
    obtain ⟨t, ht, -⟩ := map_eq_ok.mp hmap.symm
    exact ⟨t, ht⟩
  refine ⟨⟨hexists true false, hexists false true⟩, fun pruned full hpruned hfull => ?_⟩
  have hmap := Graph.schedule_map_eq r g true false
  rw [hpruned, hfull] at hmap
  simp only [Except.map, Except.ok.injEq, Prod.mk.injEq] at hmap
  obtain ⟨houtput, hgroups⟩ := hmap
  refine ⟨houtput, hgroups, fun shader hshader => ?_⟩
  exact Graph.emit_filter (Graph.order_pruned hpruned hfull houtput) hshader

/-- A color in another color space, and noise that nothing shows. -/
def noisyGraph : Graph :=
  { nodes := [⟨"o", "fragment_output", ∅⟩, ⟨"h", "rgb_to_hsv", ∅⟩, ⟨"c", "color_picker", ∅⟩,
      ⟨"n", "perlin_noise", ∅⟩, ⟨"m", "mouse_input", ∅⟩]
    edges := [⟨"1", "c", none, "h", none⟩, ⟨"2", "m", none, "n", none⟩, ⟨"3", "h", none, "o", none⟩] }

theorem noisy_pruning_only_deletes :
    ∃ pruned full shader less, noisyGraph.schedule .catalog true = .ok pruned ∧
      noisyGraph.schedule .catalog false = .ok full ∧
      pruned.order = ["c", "h", "o"] ∧ full.order = ["c", "h", "m", "n", "o"] ∧
      noisyGraph.emit .catalog .main full = .ok shader ∧
      noisyGraph.emit .catalog .main pruned = .ok less ∧
      less.statements = shader.statements.filter (fun statement =>
        decide (ReflTransGen noisyGraph.Feeds statement.node full.output)) ∧
      less.uniforms.Sublist shader.uniforms ∧ less.functions.Sublist shader.functions := by
  have hsorted : noisyGraph.sortedEdges = noisyGraph.edges :=
    Graph.sortedEdges_of_pairwise (by decide)
  have hpruned : noisyGraph.schedule .catalog true = .ok ⟨["c", "h", "o"], "o", [["m", "n"]]⟩ := by
    decide +kernel
  have hfull : noisyGraph.schedule .catalog false =
      .ok ⟨["c", "h", "m", "n", "o"], "o", [["m", "n"]]⟩ := by
    decide +kernel
  obtain ⟨shader, hshader⟩ : ∃ shader, noisyGraph.emit .catalog .main
      ⟨["c", "h", "m", "n", "o"], "o", [["m", "n"]]⟩ = .ok shader := by
    have hneeds : ((["c", "h", "m", "n", "o"].mapM (noisyGraph.fragment .catalog
        (noisyGraph.stems .catalog))).map neededHelpers).toOption =
          some [("perlin", "perlin_noise"), ("rgbToHsv", "rgb_to_hsv")] := by
      unfold Graph.fragment bindInputs incomingVariables
      rw [hsorted]
      decide +kernel
    apply Graph.exists_emit_of_helpers hneeds
    exact Registry.exists_helpersFor (by decide +kernel) (by decide +kernel)
  obtain ⟨-, hdeletes⟩ := pruning_only_deletes .catalog .main noisyGraph
  obtain ⟨-, -, hless⟩ := hdeletes _ _ hpruned hfull
  obtain ⟨less, hemit, hstatements, huniforms, hfunctions⟩ := hless shader hshader
  exact ⟨_, _, shader, less, hpruned, hfull, rfl, rfl, hshader, hemit, hstatements, huniforms,
    hfunctions⟩

end NodeShader
