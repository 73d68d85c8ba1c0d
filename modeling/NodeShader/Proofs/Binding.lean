import NodeShader.Proofs.Emission

/-!
# What the placeholders of a template stand for

`bindInputs` and `bindParameters` list a text for every input and parameter of a node, under its
name (`bindInputs_names`, `bindParameters_names`). The text of an input is the one variable that is
connected to it, or its default (`inputExpression_eq_ok_iff`). The texts reach a template through
dictionaries, where distinct names find their own entries again (`expression_of_input`,
`literal_of_parameter`).
-/

namespace NodeShader

variable {r : Registry} {g : Graph} {stems : Stems} {node : String} {n : Node} {t : NodeType}
  {inputs parameters : List (String × String)}

theorem bindInputs_names (h : bindInputs r g stems node t = .ok inputs) :
    inputs.map Prod.fst = t.inputs.map Port.name := by
  obtain ⟨_, _, h⟩ := bind_eq_ok.mp h
  have hzip : List.Forall₂ (fun x b => b.1 = x.1.name) t.inputs.zipIdx inputs := by
    refine (mapM_eq_ok.mp h).imp fun x b hb => ?_
    obtain ⟨_, _, hb⟩ := bind_eq_ok.mp hb
    cases hb
    rfl
  calc inputs.map Prod.fst = t.inputs.zipIdx.map (Port.name ∘ Prod.fst) := map_eq_of_forall₂ hzip
    _ = t.inputs.map Port.name := by rw [← List.map_map, List.zipIdx_map_fst]

theorem bindParameters_names (h : bindParameters n t = .ok parameters) :
    parameters.map Prod.fst = t.parameters.map Parameter.name := by
  refine map_eq_of_forall₂ ((mapM_eq_ok.mp h).imp fun p b hb => ?_)
  obtain ⟨_, _, hb⟩ := bind_eq_ok.mp hb
  cases hb
  rfl

theorem inputExpression_eq_ok_iff {port : Port} {sources : List String} {expression : String} :
    inputExpression node port sources = .ok expression ↔
      sources = [expression] ∨
        sources = [] ∧ ∃ literal, port.default = some literal ∧ expression = literal.toGlsl := by
  rcases sources with _ | ⟨first, _ | ⟨second, rest⟩⟩
  · cases hd : port.default <;> simp [inputExpression, hd, eq_comm]
  · simp [inputExpression]
  · simp [inputExpression]

/-- What is bound at a position is the expression for the connections of the input there. -/
theorem expression_at (h : bindInputs r g stems node t = .ok inputs) {index : Nat}
    {name expression : String} (hbound : inputs[index]? = some (name, expression)) :
    ∃ port, t.inputs[index]? = some port ∧ port.name = name ∧
      inputExpression node port ((Graph.connectionsInto (g.connections r) node index).map
        (Connection.variable stems)) = .ok expression := by
  obtain ⟨incoming, hincoming, h⟩ := bind_eq_ok.mp h
  obtain ⟨⟨port, position⟩, hport, hbound⟩ := getElem?_of_forall₂ (mapM_eq_ok.mp h) hbound
  rw [List.getElem?_zipIdx, Option.map_eq_some_iff] at hport
  obtain ⟨_, hport, heq⟩ := hport
  obtain ⟨expression, hexpression, hbound⟩ := bind_eq_ok.mp hbound
  cases hbound
  cases heq
  rw [sources_into hincoming, Nat.zero_add] at hexpression
  exact ⟨_, hport, rfl, hexpression⟩

/-- What the template finds for an input is the expression for the connections of that input. -/
theorem expression_of_input (hd : (t.inputs.map Port.name).Nodup)
    (h : bindInputs r g stems node t = .ok inputs) {index : Nat} {port : Port}
    (hport : t.inputs[index]? = some port) :
    ∃ expression, (Dictionary.ofList inputs).get? port.name = some expression ∧
      inputExpression node port ((Graph.connectionsInto (g.connections r) node index).map
        (Connection.variable stems)) = .ok expression := by
  have hnames := bindInputs_names h
  obtain ⟨incoming, hincoming, h⟩ := bind_eq_ok.mp h
  have hmem : (port, index) ∈ t.inputs.zipIdx := List.mem_zipIdx_iff_getElem?.mpr hport
  obtain ⟨b, hb, hbound⟩ := exists_of_forall₂ (mapM_eq_ok.mp h) hmem
  obtain ⟨expression, hexpression, hbound⟩ := bind_eq_ok.mp hbound
  cases hbound
  rw [sources_into hincoming] at hexpression
  exact ⟨expression, Dictionary.get?_ofList (hnames ▸ hd) hb, hexpression⟩

/-- What the template finds for a parameter is its literal in shader text. -/
theorem literal_of_parameter (hd : (t.parameters.map Parameter.name).Nodup)
    (h : bindParameters n t = .ok parameters) {p : Parameter} (hp : p ∈ t.parameters) :
    ∃ literal, parameterLiteral n p = .ok literal ∧
      (Dictionary.ofList parameters).get? p.name = some literal.toGlsl := by
  have hnames := bindParameters_names h
  obtain ⟨b, hb, hbound⟩ := exists_of_forall₂ (mapM_eq_ok.mp h) hp
  obtain ⟨literal, hliteral, hbound⟩ := bind_eq_ok.mp hbound
  cases hbound
  exact ⟨literal, hliteral, Dictionary.get?_ofList (hnames ▸ hd) hb⟩

end NodeShader
