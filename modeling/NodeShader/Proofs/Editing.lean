import NodeShader.Proofs.Agreement

/-!
# Graphs built by editing

The four operations on a graph, run in any order from the empty graph, keep it sound: its ids are
distinct and both ends of every edge are nodes of it. Each operation has one lemma that says what it
returns and what it leaves behind (`Graph.run_addNode`, `Graph.run_removeNode` and so on). So a step
fails without a change or makes one of four changes (`Graph.perform_cases`). These keep soundness
(`Graph.Sound.changed`), and so does every run (`Graph.sound_edited`).

* `editing_sound`: what holds after any sequence of operations, and what the next one does.
-/

namespace NodeShader

/-- An operation on a graph. The id of a new edge is chosen by the caller of the operation, and may
be in use already. -/
inductive Edit where
  | addNode (n : Node)
  | removeNode (id : String)
  | connect (edgeId source sourcePort target targetPort : String)
  | disconnect (edgeId : String)

/-- What an operation returns. -/
inductive EditReply where
  | added
  | removed (n : Node)
  | connected (edgeId : String)
  | disconnected (e : Edge)
  | refused (cause : GraphError)
  | absent

namespace EditReply

/-- Whether an operation returned an error or nothing. -/
def isFailure : EditReply → Bool
  | refused _ | absent => true
  | _ => false

def ofExcept {α : Type} (done : α → EditReply) : Except GraphError α → EditReply
  | .ok result => done result
  | .error cause => refused cause

def ofOption {α : Type} (done : α → EditReply) : Option α → EditReply
  | some result => done result
  | none => absent

end EditReply

/-- The operation, with what it returns as a reply. -/
def Edit.perform : Edit → Editor EditReply
  | addNode n => .ofExcept (fun _ => .added) <$> Editor.addNode n
  | removeNode id => .ofOption .removed <$> Editor.removeNode id
  | connect edgeId source sourcePort target targetPort =>
    .ofExcept .connected <$> Editor.connect edgeId source sourcePort target targetPort
  | disconnect edgeId => .ofOption .disconnected <$> Editor.disconnect edgeId

namespace Graph

/-- The graph after operations on the empty graph, the first of them first. -/
def edited (edits : List Edit) : Graph := edits.foldl (fun g edit => (edit.perform.run g).2) .empty

/-- Ids are distinct, and both ends of every edge are nodes. -/
structure Sound (g : Graph) : Prop where
  ids_nodup : (g.nodes.map Node.id).Nodup
  source_mem : ∀ e ∈ g.edges, e.source ∈ g.ids
  target_mem : ∀ e ∈ g.edges, e.target ∈ g.ids

variable {g g' : Graph} {n : Node} {id : String}

/-! ## Single operations -/

theorem run_addNode (n : Node) (g : Graph) :
    (Editor.addNode n).run g = if n.id ∈ g.ids then (.error (.duplicateNode n.id), g)
      else (.ok (), { g with nodes := g.nodes ++ [n] }) := by
  simp only [← exists_node?_iff, ← Option.isSome_iff_exists]
  cases h : (g.node? n.id).isSome <;> simp [Editor.addNode, Editor.run, h]

/-- The source is looked for first, and the missing end is named. -/
theorem run_connect (edgeId source sourcePort target targetPort : String) (g : Graph) :
    (Editor.connect edgeId source sourcePort target targetPort).run g =
      if source ∉ g.ids then (.error (.nodeNotFound source), g)
      else if target ∉ g.ids then (.error (.nodeNotFound target), g)
      else (.ok edgeId,
        { g with edges := g.edges ++ [⟨edgeId, source, sourcePort, target, targetPort⟩] }) := by
  simp only [← node?_eq_none_iff]
  cases hsource : g.node? source with
  | none => simp [Editor.connect, Editor.run, hsource]
  | some =>
    cases htarget : g.node? target <;> simp [Editor.connect, Editor.run, hsource, htarget]

/-- What stands at the place of the first item with a property is that item, and to erase the place
is to erase the item. -/
theorem first_of_findIdx? {α : Type} {p : α → Bool} {xs : List α} {i : Nat}
    (h : xs.findIdx? p = some i) :
    ∃ x, xs[i]? = some x ∧ xs.find? p = some x ∧ xs.eraseIdx i = xs.eraseP p := by
  obtain ⟨hi, hp, hbefore⟩ := List.findIdx?_eq_some_iff_getElem.mp h
  refine ⟨_, List.getElem?_eq_getElem hi, List.find?_eq_some_iff_getElem.mpr ?_, ?_⟩
  · exact ⟨hp, i, hi, rfl, by simpa using hbefore⟩
  · rw [List.eraseP_eq_eraseIdx, h]

theorem run_removeNode (id : String) (g : Graph) :
    (Editor.removeNode id).run g = (g.node? id, if id ∉ g.ids then g
      else ⟨g.nodes.eraseP (fun n => n.id == id), g.edges.filter (fun e => !e.involves id)⟩) := by
  simp only [← node?_eq_none_iff, node?]
  cases hindex : g.nodes.findIdx? (fun n => n.id == id) with
  | none =>
    have hfind : g.nodes.find? (fun n => n.id == id) = none := by simpa using hindex
    simp [Editor.removeNode, Editor.run, hindex, hfind]
  | some index =>
    obtain ⟨n, hget, hfind, herase⟩ := first_of_findIdx? hindex
    simp [Editor.removeNode, Editor.run, hindex, hfind, hget, herase]

theorem run_disconnect (edgeId : String) (g : Graph) :
    (Editor.disconnect edgeId).run g =
      (g.edges.find? (fun e => e.id == edgeId),
        { g with edges := g.edges.eraseP (fun e => e.id == edgeId) }) := by
  cases hindex : g.edges.findIdx? (fun e => e.id == edgeId) with
  | none =>
    have hfind : g.edges.find? (fun e => e.id == edgeId) = none := by simpa using hindex
    have herase : g.edges.eraseP (fun e => e.id == edgeId) = g.edges := by
      rw [List.eraseP_eq_eraseIdx, hindex]
    simp [Editor.disconnect, Editor.run, hindex, hfind, herase]
  | some index =>
    obtain ⟨e, hget, hfind, herase⟩ := first_of_findIdx? hindex
    simp [Editor.disconnect, Editor.run, hindex, hget, hfind, herase]

/-! ## Steps and runs -/

theorem run_map {α β : Type} (f : α → β) (op : Editor α) (g : Graph) :
    (f <$> op).run g = (f (op.run g).1, (op.run g).2) := rfl

/-- What an operation that succeeds makes of a graph. -/
inductive Changed (g : Graph) : Graph → Prop where
  | addNode {n : Node} (h : n.id ∉ g.ids) : Changed g { g with nodes := g.nodes ++ [n] }
  | removeNode {id : String} (h : id ∈ g.ids) :
    Changed g ⟨g.nodes.eraseP (fun n => n.id == id), g.edges.filter (fun e => !e.involves id)⟩
  | connect {e : Edge} (hsource : e.source ∈ g.ids) (htarget : e.target ∈ g.ids) :
    Changed g { g with edges := g.edges ++ [e] }
  | disconnect {e : Edge} (h : e ∈ g.edges) :
    Changed g { g with edges := g.edges.eraseP (fun f => f.id == e.id) }

/-- An operation fails and leaves the graph as it is, or it succeeds and changes it. -/
theorem perform_cases (edit : Edit) (g : Graph) :
    (edit.perform.run g).1.isFailure = true ∧ (edit.perform.run g).2 = g ∨
      (edit.perform.run g).1.isFailure = false ∧ g.Changed (edit.perform.run g).2 := by
  cases edit with
  | addNode n =>
    rw [Edit.perform, run_map, run_addNode]
    split
    next => exact .inl ⟨rfl, rfl⟩
    next h => exact .inr ⟨rfl, .addNode h⟩
  | removeNode id =>
    rw [Edit.perform, run_map, run_removeNode]
    split
    next h => exact .inl ⟨by rw [node?_eq_none_iff.mpr h]; rfl, rfl⟩
    next h =>
      obtain ⟨n, hn⟩ := exists_node?_iff.mpr (not_not.mp h)
      exact .inr ⟨by rw [hn]; rfl, .removeNode (not_not.mp h)⟩
  | connect edgeId source sourcePort target targetPort =>
    rw [Edit.perform, run_map, run_connect]
    split
    next => exact .inl ⟨rfl, rfl⟩
    next hsource =>
      split
      next => exact .inl ⟨rfl, rfl⟩
      next htarget => exact .inr ⟨rfl, .connect (not_not.mp hsource) (not_not.mp htarget)⟩
  | disconnect edgeId =>
    rw [Edit.perform, run_map, run_disconnect]
    cases hfind : g.edges.find? (fun e => e.id == edgeId) with
    | none =>
      have herase : g.edges.eraseP (fun e => e.id == edgeId) = g.edges :=
        List.eraseP_of_forall_not (by simpa using hfind)
      exact .inl ⟨rfl, by rw [herase]⟩
    | some e =>
      have hid : e.id = edgeId := by simpa using List.find?_some hfind
      exact .inr ⟨rfl, hid ▸ .disconnect (List.mem_of_find?_eq_some hfind)⟩

theorem Changed.ne {g' : Graph} (h : g.Changed g') : g' ≠ g := by
  have hlength :
      g'.nodes.length ≠ g.nodes.length ∨ g'.edges.length ≠ g.edges.length := by
    cases h with
    | addNode => exact .inl (by simp)
    | @removeNode id h =>
      obtain ⟨n, hn, hid⟩ := mem_ids.mp h
      have hpos := List.length_pos_of_mem hn
      refine .inl ?_
      rw [List.length_eraseP_of_mem hn (by simp [hid])]
      omega
    | connect => exact .inr (by simp)
    | disconnect h =>
      have hpos := List.length_pos_of_mem h
      refine .inr ?_
      rw [List.length_eraseP_of_mem h (by simp)]
      omega
  rintro rfl
  simp at hlength

/-- An operation changes the graph exactly if it succeeds. -/
theorem perform_eq_self_iff (edit : Edit) (g : Graph) :
    (edit.perform.run g).2 = g ↔ (edit.perform.run g).1.isFailure = true := by
  rcases perform_cases edit g with ⟨hfails, hsame⟩ | ⟨hsucceeds, hchanged⟩
  · exact iff_of_true hsame hfails
  · exact iff_of_false hchanged.ne (by simp [hsucceeds])

namespace Sound

/-- Where ids are distinct, only the named node goes. -/
theorem eraseP_nodes (h : g.Sound) (id : String) :
    g.nodes.eraseP (fun m => m.id == id) = g.nodes.filter (fun m => m.id != id) := by
  have hd := h.ids_nodup
  generalize g.nodes = nodes at hd
  induction nodes with
  | nil => rfl
  | cons m nodes ih =>
    rw [List.map_cons, List.nodup_cons] at hd
    by_cases hm : m.id = id
    · rw [List.eraseP_cons_of_pos (by simpa using hm), List.filter_cons_of_neg (by simpa using hm)]
      symm
      rw [List.filter_eq_self]
      intro k hk
      rw [bne_iff_ne, ← hm]
      exact fun heq => hd.1 (List.mem_map.mpr ⟨k, hk, heq⟩)
    · rw [List.eraseP_cons_of_neg (by simpa using hm), List.filter_cons_of_pos (by simpa using hm),
        ih hd.2]

theorem addNode (h : g.Sound) (hnew : n.id ∉ g.ids) :
    ({ g with nodes := g.nodes ++ [n] } : Graph).Sound := by
  have hids {other : String} (hother : other ∈ g.ids) :
      other ∈ ({ g with nodes := g.nodes ++ [n] } : Graph).ids := by
    obtain ⟨m, hm, hid⟩ := mem_ids.mp hother
    exact mem_ids.mpr ⟨m, List.mem_append_left _ hm, hid⟩
  refine ⟨?_, fun e he => hids (h.source_mem e he), fun e he => hids (h.target_mem e he)⟩
  rw [List.map_append, List.nodup_append]
  refine ⟨h.ids_nodup, by simp, ?_⟩
  intro a ha b hb heq
  obtain ⟨m, hm, rfl⟩ := List.mem_map.mp ha
  rw [List.map_singleton, List.mem_singleton] at hb
  exact hnew (mem_ids.mpr ⟨m, hm, heq.trans hb⟩)

theorem removeNode (h : g.Sound) (id : String) :
    (⟨g.nodes.eraseP (fun n => n.id == id), g.edges.filter (fun e => !e.involves id)⟩ :
      Graph).Sound := by
  rw [h.eraseP_nodes]
  have hids {other : String} (hother : other ∈ g.ids) (hne : other ≠ id) (edges : List Edge) :
      other ∈ (⟨g.nodes.filter (fun m => m.id != id), edges⟩ : Graph).ids := by
    obtain ⟨m, hm, rfl⟩ := mem_ids.mp hother
    exact mem_ids.mpr ⟨m, by simp [hm, hne], rfl⟩
  have hkept {e : Edge} (he : e ∈ g.edges.filter (fun e => !e.involves id)) :
      e ∈ g.edges ∧ e.source ≠ id ∧ e.target ≠ id := by
    simpa [Edge.involves] using he
  refine ⟨h.ids_nodup.sublist (List.filter_sublist.map _), fun e he => ?_, fun e he => ?_⟩
  · obtain ⟨hmem, hsource, -⟩ := hkept he
    exact hids (h.source_mem e hmem) hsource _
  · obtain ⟨hmem, -, htarget⟩ := hkept he
    exact hids (h.target_mem e hmem) htarget _

/-- Every change keeps a graph sound. -/
theorem changed {g' : Graph} (h : g.Sound) (hchanged : g.Changed g') : g'.Sound := by
  cases hchanged with
  | addNode hnew => exact h.addNode hnew
  | removeNode => exact h.removeNode _
  | connect hsource htarget =>
    refine ⟨h.ids_nodup, ?_, ?_⟩
    · exact List.forall_mem_append.mpr ⟨h.source_mem, List.forall_mem_singleton.mpr hsource⟩
    · exact List.forall_mem_append.mpr ⟨h.target_mem, List.forall_mem_singleton.mpr htarget⟩
  | disconnect =>
    exact ⟨h.ids_nodup, fun f hf => h.source_mem f (List.mem_of_mem_eraseP hf),
      fun f hf => h.target_mem f (List.mem_of_mem_eraseP hf)⟩

theorem perform (h : g.Sound) (edit : Edit) : (edit.perform.run g).2.Sound := by
  rcases perform_cases edit g with ⟨-, hsame⟩ | ⟨-, hchanged⟩
  · exact hsame.symm ▸ h
  · exact h.changed hchanged

end Sound

/-- After any run of operations the graph is sound. -/
theorem sound_edited (edits : List Edit) : (edited edits).Sound := by
  have hrun (g : Graph) (h : g.Sound) :
      (edits.foldl (fun g edit => (edit.perform.run g).2) g).Sound := by
    induction edits generalizing g with
    | nil => exact h
    | cons edit edits ih => exact ih _ (h.perform edit)
  exact hrun .empty ⟨by simp [Graph.empty], by simp [Graph.empty], by simp [Graph.empty]⟩

/-! ## Validation -/

variable {r : Registry}

/-- Shared ids are reported by the check for them only, and an end outside the graph by the check of
the edges only. -/
theorem mem_of_kind {d : Diagnostic} (hd : d ∈ g.validate r)
    (hkind : d.kind = .duplicateNodeId ∨ d.kind = .unknownNode) :
    d ∈ g.duplicateIds ∨ d ∈ g.unresolvedEdges r := by
  rcases mem_validate.mp hd with hd | hd | hd | hd | hd | hd | hd | hd | hd
  · exact .inl hd
  · obtain ⟨n, -, h⟩ := List.mem_filterMap.mp hd
    split at h <;> cases h
    simp at hkind
  · exact .inr hd
  · obtain ⟨⟨n, t⟩, -, h⟩ := List.mem_flatMap.mp hd
    obtain ⟨⟨port, index⟩, -, h⟩ := List.mem_filterMap.mp h
    dsimp only at h
    split at h <;> cases h
    simp at hkind
  · obtain ⟨⟨id, into⟩, -, h⟩ := List.mem_filterMap.mp hd
    dsimp only at h
    split at h <;> cases h
    simp at hkind
  · obtain ⟨⟨id, into⟩, -, h⟩ := List.mem_flatMap.mp hd
    obtain ⟨c, -, h⟩ := List.mem_filterMap.mp h
    dsimp only at h
    split at h <;> cases h
    simp at hkind
  · obtain ⟨⟨n, t⟩, -, h⟩ := List.mem_flatMap.mp hd
    obtain ⟨⟨name, value⟩, -, h⟩ := List.mem_filterMap.mp h
    obtain ⟨message, -, rfl⟩ := Option.map_eq_some_iff.mp h
    simp at hkind
  · split at hd
    · rw [List.mem_singleton.mp hd] at hkind
      simp at hkind
    · cases hd
  · -- both kinds are errors, and the only errors of a plan are cycles
    have herror : d.isError = true := by
      rcases hkind with h | h <;>
        simp [Diagnostic.isError, Diagnostic.severity, h, DiagnosticKind.severity]
    rw [planProblems] at hd
    dsimp only at hd
    split at hd
    · rcases List.mem_append.mp hd with hd | hd
      · rw [several_isWarning hd] at herror
        cases herror
      · obtain ⟨ids, -, rfl⟩ := List.mem_map.mp hd
        rw [unusedGroup_isWarning] at herror
        cases herror
    · rcases List.mem_append.mp hd with hd | hd
      · rw [several_isWarning hd] at herror
        cases herror
      · obtain ⟨ids, -, rfl⟩ := List.mem_map.mp hd
        simp at hkind
    · cases hd

/-- A sound graph has neither shared ids nor edges that lead out of it. -/
theorem Sound.not_reported (h : g.Sound) {d : Diagnostic} (hd : d ∈ g.validate r) :
    d.kind ≠ .duplicateNodeId ∧ d.kind ≠ .unknownNode := by
  rw [← not_or]
  intro hkind
  rcases mem_of_kind hd hkind with hd | hd
  · rw [duplicateIds_eq_nil_iff.mpr h.ids_nodup] at hd
    cases hd
  · obtain ⟨e, he, hdiagnostic⟩ := List.mem_filterMap.mp hd
    have he := mem_sortedEdges.mp he
    split at hdiagnostic
    next => cases hdiagnostic
    next p hp =>
      rcases Edge.resolve_error hp with ⟨id, hend, hmissing, -⟩ | ⟨_, _, -, -, -, rfl⟩ |
        ⟨id, direction, handle, rfl⟩
      · rcases hend with rfl | rfl
        · exact hmissing (h.source_mem e he)
        · exact hmissing (h.target_mem e he)
      · cases hdiagnostic
      · cases handle <;> cases hdiagnostic <;> simp at hkind

end Graph

/-- Take any sequence of operations on the empty graph. The graph that comes out has distinct ids
and both ends of every edge, so no validation reports otherwise. Any next operation changes it
exactly if it succeeds. A node is refused exactly if its id is there, an edge exactly if one of its
ends is not, the source being named first, and nothing is removed exactly if nothing has that id. A
node that is removed takes with it the edges that touch it, and leaves all else in order. -/
theorem editing_sound (edits : List Edit) :
    let g := Graph.edited edits
    g.Sound ∧
    (∀ r, ∀ d ∈ g.validate r, d.kind ≠ .duplicateNodeId ∧ d.kind ≠ .unknownNode) ∧
    (∀ edit : Edit, (edit.perform.run g).2 = g ↔ (edit.perform.run g).1.isFailure = true) ∧
    (∀ n cause, ((Editor.addNode n).run g).1 = .error cause ↔
      n.id ∈ g.ids ∧ cause = .duplicateNode n.id) ∧
    (∀ edgeId source sourcePort target targetPort cause,
      ((Editor.connect edgeId source sourcePort target targetPort).run g).1 = .error cause ↔
        source ∉ g.ids ∧ cause = .nodeNotFound source ∨
          source ∈ g.ids ∧ target ∉ g.ids ∧ cause = .nodeNotFound target) ∧
    (∀ edgeId, ((Editor.disconnect edgeId).run g).1 = none ↔ ∀ e ∈ g.edges, e.id ≠ edgeId) ∧
    (∀ id, ((Editor.removeNode id).run g).1 = none ↔ id ∉ g.ids) ∧
    ∀ id n g', (Editor.removeNode id).run g = (some n, g') →
      n ∈ g.nodes ∧ n.id = id ∧ g'.nodes = g.nodes.filter (fun m => m.id != id) ∧
        g'.edges = g.edges.filter (fun e => e.source != id && e.target != id) := by
  intro g
  have hsound : g.Sound := Graph.sound_edited edits
  refine ⟨hsound, fun r d hd => hsound.not_reported hd,
    fun edit => Graph.perform_eq_self_iff edit g, fun n cause => ?_, fun _ _ _ _ _ cause => ?_,
    fun edgeId => ?_, fun id => ?_, fun id n g' h => ?_⟩
  · rw [Graph.run_addNode]
    split <;> simp [*, eq_comm]
  · rw [Graph.run_connect]
    split
    next hsource => simp [hsource, eq_comm]
    next hsource => split <;> simp_all [eq_comm]
  · rw [Graph.run_disconnect]
    simp
  · rw [Graph.run_removeNode, Graph.node?_eq_none_iff]
  · rw [Graph.run_removeNode, Prod.mk.injEq] at h
    obtain ⟨hn, rfl⟩ := h
    have hid : id ∈ g.ids := Graph.exists_node?_iff.mp ⟨n, hn⟩
    refine ⟨Graph.node?_mem hn, Graph.node?_id hn, ?_⟩
    simp only [hid, not_true_eq_false, if_false, hsound.eraseP_nodes, true_and]
    refine congrArg (List.filter · _) (funext fun e => ?_)
    rw [Edge.involves, Bool.not_or]
    rfl

/-- A row of three nodes; the middle one is also joined to itself, and the outer ones to each
other. -/
def rowEdits : List Edit :=
  [.addNode ⟨"a", "time_input", ∅⟩, .addNode ⟨"b", "sin", ∅⟩, .addNode ⟨"c", "step", ∅⟩,
    .connect "1" "a" "time" "b" "value", .connect "2" "b" "result" "b" "value",
    .connect "3" "b" "result" "c" "edge", .connect "4" "a" "time" "c" "x"]

theorem row_removal :
    (Editor.removeNode "b").run (Graph.edited rowEdits) = (some ⟨"b", "sin", ∅⟩,
      ⟨[⟨"a", "time_input", ∅⟩, ⟨"c", "step", ∅⟩], [⟨"4", "a", "time", "c", "x"⟩]⟩) ∧
    [⟨"4", "a", "time", "c", "x"⟩] = (Graph.edited rowEdits).edges.filter
      (fun e => e.source != "b" && e.target != "b") := by
  have hremove : (Editor.removeNode "b").run (Graph.edited rowEdits) = (some ⟨"b", "sin", ∅⟩,
      ⟨[⟨"a", "time_input", ∅⟩, ⟨"c", "step", ∅⟩], [⟨"4", "a", "time", "c", "x"⟩]⟩) := by
    decide +kernel
  obtain ⟨-, -, -, -, -, -, -, hremoved⟩ := editing_sound rowEdits
  obtain ⟨-, -, -, hedges⟩ := hremoved "b" _ _ hremove
  exact ⟨hremove, hedges⟩

end NodeShader
