import NodeShader.Proofs.Validation

/-!
# The meaning of a graph

A graph means something once its node types do. An `Interpretation` says what the types compute
on values of some kind; `Graph.Means` gives values to the inputs and outputs of a graph by
following its edges backwards. It does not speak of schedules or of variables. The host of the
shader chooses the values of uniform outputs.

In a well-formed graph no place has two values (`Graph.Means.unique`).
-/

namespace NodeShader

/-- What node types compute from the values of their inputs and the literals of their parameters:
their outputs and temporaries by name, and, where they end a graph, its result. -/
structure Interpretation (V : Type) where
  literal : Literal → V
  output : NodeType → List V → List Literal → String → V
  temporary : NodeType → List V → List Literal → String → V
  result : NodeType → List V → List Literal → V

/-- A place in a graph that has a value. -/
inductive Place where
  | input (node : String) (index : Nat)
  | output (node : String) (port : Port)

namespace Graph

variable {V : Type} (I : Interpretation V) (host : String → String → V) (r : Registry) (g : Graph)

/-- The values of a graph's places. -/
inductive Means : Place → V → Prop
  /-- A uniform output has the value that the host chose for it. -/
  | uniform {id : String} {n : Node} {t : NodeType} {port : Port} :
      n ∈ g.nodes → n.id = id → r.type? n.typeId = some t → port ∈ t.outputs →
      port.uniform = true → Means (.output id port) (host id port.name)
  /-- Any other output is computed from the inputs and parameters of its node. -/
  | computed {id : String} {n : Node} {t : NodeType} {port : Port} {values : List V}
      {literals : List Literal} :
      n ∈ g.nodes → n.id = id → r.type? n.typeId = some t → port ∈ t.outputs →
      port.uniform = false → values.length = t.inputs.length →
      (∀ index v, values[index]? = some v → Means (.input id index) v) →
      List.Forall₂ (fun p literal => parameterLiteral n p = .ok literal) t.parameters literals →
      Means (.output id port) (I.output t values literals port.name)
  /-- An input has the value of the output that an edge joins to it. -/
  | connected {e : Edge} {id : String} {output input : Port} {index : Nat} {v : V} :
      e ∈ g.edges → e.target = id → e.Joins r g output index input →
      Means (.output e.source output) v → Means (.input id index) v
  /-- An input without an edge has its default. -/
  | default {id : String} {n : Node} {t : NodeType} {port : Port} {index : Nat}
      {literal : Literal} :
      n ∈ g.nodes → n.id = id → r.type? n.typeId = some t → t.inputs[index]? = some port →
      g.arrivals t id index = [] → port.default = some literal →
      Means (.input id index) (I.literal literal)

/-- The values of the inputs and the literals of the parameters of a node. -/
def Applied (n : Node) (t : NodeType) (values : List V) (literals : List Literal) : Prop :=
  values.length = t.inputs.length ∧
    (∀ index v, values[index]? = some v → g.Means I host r (.input n.id index) v) ∧
    List.Forall₂ (fun p literal => parameterLiteral n p = .ok literal) t.parameters literals

/-- The result that a node gives as the end of the graph. -/
def ResultMeans (id : String) (v : V) : Prop :=
  ∃ n t values literals, n ∈ g.nodes ∧ n.id = id ∧ r.type? n.typeId = some t ∧
    g.Applied I host r n t values literals ∧ v = I.result t values literals

variable {I host r g}

/-- An edge into an input arrives there. -/
theorem mem_arrivals_of_joins (hd : (g.nodes.map Node.id).Nodup) {e : Edge} {id : String}
    {n : Node} {t : NodeType} {output input : Port} {index : Nat} (he : e ∈ g.edges)
    (htarget : e.target = id) (hj : e.Joins r g output index input) (hn : n ∈ g.nodes)
    (hid : n.id = id) (ht : r.type? n.typeId = some t) : e ∈ g.arrivals t id index := by
  obtain ⟨-, -, -, hm, hmid, hmt, -, -, hindex, -⟩ := hj
  have hsame := List.inj_on_of_nodup_map hd hm hn (hmid.trans (htarget.trans hid.symm))
  rw [hsame, ht] at hmt
  cases hmt
  simp [arrivals, he, htarget, hindex]

/-- At most one edge joins an output to an input. -/
theorem WellFormed.edge_unique (hg : g.WellFormed r) {e e' : Edge}
    {output output' input input' : Port} {index : Nat} (he : e ∈ g.edges) (he' : e' ∈ g.edges)
    (htarget : e'.target = e.target) (hj : e.Joins r g output index input)
    (hj' : e'.Joins r g output' index input') : e = e' := by
  have hfirst := hj
  obtain ⟨-, -, -, hn, hid, ht, -, -, hindex, -⟩ := hfirst
  have hmem := mem_arrivals_of_joins hg.ids_nodup he rfl hj hn hid ht
  have hmem' := mem_arrivals_of_joins hg.ids_nodup he' htarget hj' hn hid ht
  have hone := hg.inputs_single _ hn _ ht index (resolveHandle_lt hindex)
  rw [hid] at hone
  exact eq_of_mem_of_length_le_one hone hmem hmem'

theorem literals_unique {n : Node} {ps : List Parameter} {literals literals' : List Literal}
    (h : List.Forall₂ (fun p literal => parameterLiteral n p = .ok literal) ps literals)
    (h' : List.Forall₂ (fun p literal => parameterLiteral n p = .ok literal) ps literals') :
    literals = literals' :=
  Except.ok.inj ((mapM_eq_ok.mpr h).symm.trans (mapM_eq_ok.mpr h'))

/-- No place has two values. -/
theorem Means.unique (hg : g.WellFormed r) {place : Place} {v : V}
    (h : g.Means I host r place v) : ∀ w, g.Means I host r place w → v = w := by
  have node_unique {n m : Node} {id : String} (hn : n ∈ g.nodes) (hm : m ∈ g.nodes)
      (hid : n.id = id) (hid' : m.id = id) : n = m :=
    List.inj_on_of_nodup_map hg.ids_nodup hn hm (hid.trans hid'.symm)
  induction h with
  | uniform hn hid ht hp hu =>
    intro w hw
    cases hw with
    | uniform => rfl
    | computed _ _ _ _ hu' => exact absurd (hu.symm.trans hu') (by decide)
  | computed hn hid ht hp hu hlength hvalues hliterals ih =>
    intro w hw
    cases hw with
    | uniform _ _ _ _ hu' => exact absurd (hu.symm.trans hu') (by decide)
    | computed hn' hid' ht' _ _ hlength' hvalues' hliterals' =>
      cases node_unique hn hn' hid hid'
      rw [ht] at ht'
      cases ht'
      rw [literals_unique hliterals hliterals']
      congr 1
      -- the values agree one by one
      refine List.ext_getElem (hlength.trans hlength'.symm) fun index h₁ h₂ => ?_
      exact ih index _ (List.getElem?_eq_getElem h₁) _
        (hvalues' index _ (List.getElem?_eq_getElem h₂))
  | connected he htarget hj _ ih =>
    intro w hw
    cases hw with
    | connected he' htarget' hj' hw' =>
      cases hg.edge_unique he he' (htarget'.trans htarget.symm) hj hj'
      have hsame := (joins_iff_resolve hg.ids_nodup).mp hj
      rw [(joins_iff_resolve hg.ids_nodup).mp hj'] at hsame
      cases hsame
      exact ih w hw'
    | default hn hid ht _ hnone _ =>
      have hmem := mem_arrivals_of_joins hg.ids_nodup he htarget hj hn hid ht
      simp [hnone] at hmem
  | default hn hid ht hport hnone hdefault =>
    intro w hw
    cases hw with
    | connected he htarget hj _ =>
      have hmem := mem_arrivals_of_joins hg.ids_nodup he htarget hj hn hid ht
      simp [hnone] at hmem
    | default hn' hid' ht' hport' _ hdefault' =>
      cases node_unique hn hn' hid hid'
      rw [ht] at ht'
      cases ht'
      rw [hport] at hport'
      cases hport'
      rw [hdefault] at hdefault'
      cases hdefault'
      rfl

theorem Applied.unique (hg : g.WellFormed r) {n : Node} {t : NodeType} {values values' : List V}
    {literals literals' : List Literal} (h : g.Applied I host r n t values literals)
    (h' : g.Applied I host r n t values' literals') : values = values' ∧ literals = literals' := by
  refine ⟨?_, literals_unique h.2.2 h'.2.2⟩
  refine List.ext_getElem (h.1.trans h'.1.symm) fun index h₁ h₂ => ?_
  exact (h.2.1 index _ (List.getElem?_eq_getElem h₁)).unique hg _
    (h'.2.1 index _ (List.getElem?_eq_getElem h₂))

theorem ResultMeans.unique (hg : g.WellFormed r) {id : String} {v w : V}
    (h : g.ResultMeans I host r id v) (h' : g.ResultMeans I host r id w) : v = w := by
  obtain ⟨n, t, values, literals, hn, hid, ht, happlied, rfl⟩ := h
  obtain ⟨m, u, values', literals', hm, hid', hu, happlied', rfl⟩ := h'
  cases List.inj_on_of_nodup_map hg.ids_nodup hn hm (hid.trans hid'.symm)
  rw [ht] at hu
  cases hu
  obtain ⟨rfl, rfl⟩ := happlied.unique hg happlied'
  rfl

end Graph

end NodeShader
