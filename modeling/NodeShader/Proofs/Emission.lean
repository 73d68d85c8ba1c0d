import NodeShader.Proofs.Functions
import NodeShader.Proofs.Validation

/-!
# What is written for a node, and why it is not

The edges into a node bring the variables of its connections (`sources_into`), so the
expressions for its inputs are those of `connectionsInto`. From this follow the reasons why a
node cannot be written (`Graph.fragment_error`), those of a whole schedule
(`Graph.emit_error`), and what a shader is made of (`Graph.emit_ok`).
-/

namespace NodeShader

variable {r : Registry} {g : Graph} {stems : Stems}

/-! ## Connections of one input -/

/-- The variable that a connection brings. -/
def Connection.variable (stems : Stems) (c : Connection) : String :=
  outputVariable (stems.get c.source) c.sourcePort

theorem Edge.resolve_target {e : Edge} {c : Connection} (h : e.resolve r g = .ok c) :
    c.target = e.target := by
  obtain ⟨_, _, _, _, _, _, _, _, _, _, htarget⟩ := Edge.resolve_eq_ok_iff.mp h
  exact htarget

/-- The edges into a node bring its connections. -/
theorem incomingVariables_ok {node : String} {incoming : List (Nat × String)}
    (h : incomingVariables r g stems node = .ok incoming) :
    incoming = ((g.connections r).filter (fun c => c.target == node)).map
      fun c => (c.targetIndex, c.variable stems) := by
  rw [incomingVariables] at h
  rw [Graph.connections]
  generalize g.sortedEdges = edges at h ⊢
  induction edges generalizing incoming with
  | nil => simpa [pure, Except.pure, eq_comm] using h
  | cons e edges ih =>
    by_cases he : e.target = node
    · rw [List.filter_cons_of_pos (by simpa using he), List.mapM_cons] at h
      obtain ⟨v, hv, h⟩ := bind_eq_ok.mp h
      obtain ⟨vs, hvs, h⟩ := bind_eq_ok.mp h
      cases h
      cases hc : e.resolve r g with
      | error p => simp [hc] at hv
      | ok c =>
        simp only [hc, Except.ok.injEq] at hv
        have htarget : c.target = node := (Edge.resolve_target hc).trans he
        rw [List.filterMap_cons_some (by rw [hc]; rfl),
          List.filter_cons_of_pos (by simpa using htarget), List.map_cons, ← ih hvs, ← hv]
        rfl
    · rw [List.filter_cons_of_neg (by simpa using he)] at h
      cases hc : e.resolve r g with
      | error p => rw [List.filterMap_cons_none (by rw [hc]; rfl), ih h]
      | ok c =>
        have htarget : c.target ≠ node := fun heq => he ((Edge.resolve_target hc).symm.trans heq)
        rw [List.filterMap_cons_some (by rw [hc]; rfl),
          List.filter_cons_of_neg (by simpa using htarget), ih h]

theorem incomingVariables_error {node : String} {err : EmissionError}
    (h : incomingVariables r g stems node = .error err) :
    ∃ e ∈ g.edges, e.target = node ∧
      ∃ p, e.resolve r g = .error p ∧ err = p.emissionError node := by
  obtain ⟨before, e, after, hsplit, -, he⟩ := mapM_eq_error.mp h
  have hmem : e ∈ g.sortedEdges.filter (fun e => e.target == node) := by
    rw [hsplit]
    simp
  obtain ⟨hmem, htarget⟩ := List.mem_filter.mp hmem
  refine ⟨e, Graph.mem_sortedEdges.mp hmem, by simpa using htarget, ?_⟩
  split at he
  · rename_i p hp
    cases he
    exact ⟨p, hp, rfl⟩
  · cases he

/-- The variables for the input at a position are those of its connections. -/
theorem sources_into {node : String} {incoming : List (Nat × String)}
    (h : incomingVariables r g stems node = .ok incoming) (index : Nat) :
    (incoming.filter (fun v => v.1 == index)).map Prod.snd =
      (Graph.connectionsInto (g.connections r) node index).map (Connection.variable stems) := by
  rw [incomingVariables_ok h, Graph.connectionsInto, List.filter_map, List.map_map,
    List.filter_filter]
  congr 2
  funext c
  exact Bool.and_comm _ _

/-! ## Reasons of failure -/

theorem inputExpression_error {node : String} {port : Port} {sources : List String}
    {err : EmissionError} (h : inputExpression node port sources = .error err) :
    (sources = [] ∧ port.default = none ∧ err = .missingInput node port.name) ∨
      (2 ≤ sources.length ∧ err = .inputAlreadyConnected node port.name) := by
  match sources with
  | [] =>
    cases hd : port.default with
    | none =>
      simp only [inputExpression, hd, Except.error.injEq] at h
      exact .inl ⟨rfl, rfl, h.symm⟩
    | some literal => simp [inputExpression, hd] at h
  | [_] => simp [inputExpression] at h
  | _ :: _ :: _ =>
    simp only [inputExpression, Except.error.injEq] at h
    exact .inr ⟨by simp, h.symm⟩

/-- The inputs of a node cannot be bound because of an edge into it, or because one of them
has no connection and no default, or several connections. -/
theorem bindInputs_error {node : String} {t : NodeType} {err : EmissionError}
    (h : bindInputs r g stems node t = .error err) :
    (∃ e ∈ g.edges, e.target = node ∧ ∃ p, e.resolve r g = .error p ∧ err = p.emissionError node) ∨
    ∃ index port, t.inputs[index]? = some port ∧
      ((Graph.connectionsInto (g.connections r) node index = [] ∧ port.default = none ∧
          err = .missingInput node port.name) ∨
        (2 ≤ (Graph.connectionsInto (g.connections r) node index).length ∧
          err = .inputAlreadyConnected node port.name)) := by
  rcases bind_eq_error.mp h with h | ⟨incoming, hincoming, h⟩
  · exact .inl (incomingVariables_error h)
  · obtain ⟨before, ⟨port, index⟩, after, hsplit, -, h⟩ := mapM_eq_error.mp h
    have hmem : (port, index) ∈ t.inputs.zipIdx := by
      rw [hsplit]
      simp
    refine .inr ⟨index, port, List.mem_zipIdx_iff_getElem?.mp hmem, ?_⟩
    dsimp only at h
    rw [sources_into hincoming] at h
    rcases bind_eq_error.mp h with h | ⟨_, _, h⟩
    · rcases inputExpression_error h with ⟨hnil, hrest⟩ | ⟨htwo, hrest⟩
      · exact .inl ⟨List.map_eq_nil_iff.mp hnil, hrest⟩
      · exact .inr ⟨by simpa using htwo, hrest⟩
    · cases h

theorem parameterLiteral_error {n : Node} {p : Parameter} {err : EmissionError}
    (h : parameterLiteral n p = .error err) :
    ∃ value cause, n.parameters.get? p.name = some value ∧ p.resolve value = .error cause ∧
      err = .parameter n.id p.name cause := by
  cases hv : n.parameters.get? p.name with
  | none => simp [parameterLiteral, hv] at h
  | some value =>
    cases hc : p.resolve value with
    | ok literal => simp [parameterLiteral, hv, hc] at h
    | error cause =>
      simp only [parameterLiteral, hv, hc, Except.error.injEq] at h
      exact ⟨value, cause, rfl, hc, h.symm⟩

theorem bindParameters_error {n : Node} {t : NodeType} {err : EmissionError}
    (h : bindParameters n t = .error err) :
    ∃ p ∈ t.parameters, parameterLiteral n p = .error err := by
  obtain ⟨before, p, after, hsplit, -, h⟩ := mapM_eq_error.mp h
  rcases bind_eq_error.mp h with h | ⟨_, _, h⟩
  · exact ⟨p, by rw [hsplit]; simp, h⟩
  · cases h

theorem nodeUniforms_error {n : Node} {t : NodeType} {stem : String} {err : EmissionError}
    (h : nodeUniforms n t stem = .error err) :
    ∃ p ∈ t.parameters, parameterLiteral n p = .error err := by
  obtain ⟨_, port, _, -, -, h⟩ := mapM_eq_error.mp h
  rcases bind_eq_error.mp h with h | ⟨_, _, h⟩
  · cases hp : t.parameter? port.name with
    | none => simp [uniformValue, hp] at h
    | some p =>
      simp only [uniformValue, hp] at h
      rcases bind_eq_error.mp h with h | ⟨_, _, h⟩
      · exact ⟨p, List.mem_of_find?_eq_some hp, h⟩
      · cases h
  · cases h

/-- Why nothing can be written for a node, unless its type is at fault. -/
theorem Graph.fragment_error {id : String} {err : EmissionError}
    (h : g.fragment r stems id = .error err) (hi : err.isInternal = false) :
    (g.node? id = none ∧ err = .nodeNotFound id) ∨
    (∃ n, g.node? id = some n ∧ r.type? n.typeId = none ∧ err = .unknownNodeType n.id n.typeId) ∨
    ∃ n t, g.node? id = some n ∧ r.type? n.typeId = some t ∧
      ((∃ p ∈ t.parameters, parameterLiteral n p = .error err) ∨
        bindInputs r g stems id t = .error err) := by
  rw [fragment] at h
  cases hn : g.node? id with
  | none =>
    simp only [hn] at h
    cases h
    exact .inl ⟨rfl, rfl⟩
  | some n =>
    simp only [hn] at h
    refine .inr ?_
    cases ht : r.type? n.typeId with
    | none =>
      simp only [ht] at h
      cases h
      exact .inl ⟨n, rfl, ht, rfl⟩
    | some t =>
      simp only [ht] at h
      refine .inr ⟨n, t, rfl, ht, ?_⟩
      rcases bind_eq_error.mp h with h | ⟨template, -, h⟩
      · obtain ⟨cause, -, rfl⟩ := mapError_eq_error.mp h
        cases hi
      rcases bind_eq_error.mp h with h | ⟨uniforms, -, h⟩
      · exact .inl (nodeUniforms_error h)
      rcases bind_eq_error.mp h with h | ⟨inputs, -, h⟩
      · exact .inr h
      rcases bind_eq_error.mp h with h | ⟨parameters, -, h⟩
      · exact .inl (bindParameters_error h)
      split at h
      · cases h
      · rcases bind_eq_error.mp h with h | ⟨text, -, h⟩
        · obtain ⟨cause, -, rfl⟩ := mapError_eq_error.mp h
          cases hi
        · cases h

/-- A schedule cannot be written because of its first node that cannot. -/
theorem Graph.emit_error {entry : EntryPoint} {s : Schedule} {err : EmissionError}
    (h : g.emit r entry s = .error err) (hi : err.isInternal = false) :
    ∃ before id after, s.order = before ++ id :: after ∧
      (∀ a ∈ before, ∃ f, g.fragment r (g.stems r) a = .ok f) ∧
      g.fragment r (g.stems r) id = .error err := by
  rcases bind_eq_error.mp h with h | ⟨fragments, -, h⟩
  · exact mapM_eq_error.mp h
  rcases bind_eq_error.mp h with h | ⟨functions, -, h⟩
  · obtain ⟨owner, name, rfl, -⟩ := Registry.helpersFor_error h
    cases hi
  · cases h

/-! ## What is written -/

/-- The statement of a node whose template is `template`; a blank one has none. -/
def HasStatement (id : String) (t : NodeType) (template : Template) (stem : String)
    (statement : Option Statement) : Prop :=
  if template.isBlank then statement = none
  else ∃ text, statement = some ⟨id, declaredNames t template stem, text⟩

theorem Graph.fragment_ok {id : String} {f : Fragment} (h : g.fragment r stems id = .ok f) :
    ∃ n t template, g.node? id = some n ∧ r.type? n.typeId = some t ∧
      t.parseTemplate = .ok template ∧ nodeUniforms n t (stems.get id) = .ok f.uniforms ∧
      (∃ inputs, bindInputs r g stems id t = .ok inputs) ∧
      (∃ parameters, bindParameters n t = .ok parameters) ∧
      HasStatement id t template (stems.get id) f.statement := by
  rw [fragment] at h
  cases hn : g.node? id with
  | none =>
    simp only [hn] at h
    cases h
  | some n =>
    simp only [hn] at h
    cases ht : r.type? n.typeId with
    | none =>
      simp only [ht] at h
      cases h
    | some t =>
      simp only [ht] at h
      obtain ⟨template, htemplate, h⟩ := bind_eq_ok.mp h
      obtain ⟨uniforms, huniforms, h⟩ := bind_eq_ok.mp h
      obtain ⟨inputs, hinputs, h⟩ := bind_eq_ok.mp h
      obtain ⟨parameters, hparameters, h⟩ := bind_eq_ok.mp h
      refine ⟨n, t, template, rfl, ht, mapError_eq_ok.mp htemplate, ?_, ⟨inputs, hinputs⟩,
        ⟨parameters, hparameters⟩, ?_⟩
      all_goals
        split at h
        next hblank =>
          cases h
          simp [HasStatement, hblank, huniforms]
        next hblank =>
          obtain ⟨text, -, h⟩ := bind_eq_ok.mp h
          cases h
          simp [HasStatement, hblank, huniforms]

theorem Graph.node_of_statement {id : String} {f : Fragment} {statement : Statement}
    (h : g.fragment r stems id = .ok f) (hs : f.statement = some statement) :
    statement.node = id := by
  obtain ⟨n, t, template, -, -, -, -, -, -, hstatement⟩ := fragment_ok h
  rw [HasStatement, hs] at hstatement
  split at hstatement
  · cases hstatement
  · obtain ⟨text, htext⟩ := hstatement
    cases htext
    rfl

/-- The shader of some fragments, with these functions. -/
def assembled (r : Registry) (entry : EntryPoint) (fragments : List Fragment)
    (functions : List String) : Shader :=
  let uniforms := builtinUniforms ++ fragments.flatMap Fragment.uniforms
  let statements := fragments.filterMap Fragment.statement
  ⟨shaderText r entry uniforms functions statements, uniforms, functions, statements⟩

/-- A schedule is written when each of its nodes is and the helpers that they need are found. -/
theorem Graph.emit_eq_ok_iff {entry : EntryPoint} {s : Schedule} {shader : Shader} :
    g.emit r entry s = .ok shader ↔ ∃ fragments functions,
      List.Forall₂ (fun id f => g.fragment r (g.stems r) id = .ok f) s.order fragments ∧
      r.helpersFor (neededHelpers fragments) = .ok functions ∧
      shader = assembled r entry fragments functions := by
  constructor
  · intro h
    obtain ⟨fragments, hfragments, h⟩ := bind_eq_ok.mp h
    obtain ⟨functions, hfunctions, h⟩ := bind_eq_ok.mp h
    cases h
    exact ⟨fragments, functions, mapM_eq_ok.mp hfragments, hfunctions, rfl⟩
  · rintro ⟨fragments, functions, hall, hfunctions, rfl⟩
    exact bind_eq_ok.mpr ⟨fragments, mapM_eq_ok.mpr hall,
      bind_eq_ok.mpr ⟨functions, hfunctions, rfl⟩⟩

/-- What a shader is made of. -/
theorem Graph.emit_ok {entry : EntryPoint} {s : Schedule} {shader : Shader}
    (h : g.emit r entry s = .ok shader) :
    ∃ fragments,
      List.Forall₂ (fun id f => g.fragment r (g.stems r) id = .ok f) s.order fragments ∧
      shader.uniforms = builtinUniforms ++ fragments.flatMap Fragment.uniforms ∧
      shader.statements = fragments.filterMap Fragment.statement := by
  obtain ⟨fragments, functions, hall, -, rfl⟩ := emit_eq_ok_iff.mp h
  exact ⟨fragments, hall, rfl, rfl⟩

/-- A schedule can be written if each of its nodes can and what they need is found. -/
theorem Graph.exists_emit_of_helpers {entry : EntryPoint} {s : Schedule}
    {needed : List (String × String)}
    (h : ((s.order.mapM (g.fragment r (g.stems r))).map neededHelpers).toOption = some needed)
    (hfound : ∃ functions, r.helpersFor needed = .ok functions) :
    ∃ shader, g.emit r entry s = .ok shader := by
  obtain ⟨functions, hfunctions⟩ := hfound
  cases hfragments : s.order.mapM (g.fragment r (g.stems r)) with
  | error e =>
    rw [hfragments] at h
    cases h
  | ok fragments =>
    rw [hfragments] at h
    have hneeds : neededHelpers fragments = needed := by
      simpa [Except.map, Except.toOption] using h
    rw [← hneeds] at hfunctions
    exact ⟨_, emit_eq_ok_iff.mpr ⟨fragments, functions, mapM_eq_ok.mp hfragments, hfunctions, rfl⟩⟩

/-- A schedule can be written if each of its nodes can and they need no helpers. -/
theorem Graph.exists_emit {entry : EntryPoint} {s : Schedule}
    (h : ((s.order.mapM (g.fragment r (g.stems r))).map neededHelpers).toOption = some []) :
    ∃ shader, g.emit r entry s = .ok shader := by
  refine exists_emit_of_helpers h ?_
  exact ⟨_, bind_eq_ok.mpr ⟨[], by simp [Registry.closeHelpers], rfl⟩⟩

end NodeShader
