import NodeShader.Proofs.Binding
import NodeShader.Proofs.Meaning
import NodeShader.Proofs.Naming

/-!
# A machine for statements

A `Machine` holds variables and the result. A statement is the rendered template of its node. It
reads the expressions that are bound to the inputs of the node and writes the variables that are
bound to its outputs. Reading a variable that is not set, or writing one that is, makes the machine
stop (`Graph.execute`). At the start the uniforms are set, each to the value that the host gave it,
and nothing else (`Graph.start_uniform`, `Graph.start_likeStem`).
-/

namespace NodeShader

variable {V : Type}

/-! ## Machines -/

structure Machine (V : Type) where
  store : String → Option V
  result : Option V

namespace Machine

def set (m : Machine V) (name : String) (value : V) : Machine V :=
  { m with store := fun other => if other = name then some value else m.store other }

theorem store_set (m : Machine V) (name other : String) (value : V) :
    (m.set name value).store other = if other = name then some value else m.store other := rfl

/-- Sets a variable, unless it is set already. -/
def declare (m : Machine V) (name : String) (value : V) : Option (Machine V) :=
  match m.store name with
  | some _ => none
  | none => some (m.set name value)

def declareAll (m : Machine V) : List (String × V) → Option (Machine V)
  | [] => some m
  | (name, value) :: rest => do (← m.declare name value).declareAll rest

/-- Sets the result, unless it is set already. -/
def finish (m : Machine V) (value : V) : Option (Machine V) :=
  match m.result with
  | some _ => none
  | none => some { m with result := some value }

/-- Variables of distinct names that are not set can be declared, and no other changes. -/
theorem declareAll_of_unset {m : Machine V} {writes : List (String × V)}
    (hd : (writes.map Prod.fst).Nodup)
    (hunset : ∀ name ∈ writes.map Prod.fst, m.store name = none) :
    ∃ m', m.declareAll writes = some m' ∧ m'.result = m.result ∧
      (∀ name v, (name, v) ∈ writes → m'.store name = some v) ∧
      ∀ name, name ∉ writes.map Prod.fst → m'.store name = m.store name := by
  induction writes generalizing m with
  | nil => exact ⟨m, rfl, rfl, by simp, fun _ _ => rfl⟩
  | cons write rest ih =>
    obtain ⟨name, value⟩ := write
    obtain ⟨hfirst, hrest⟩ := List.nodup_cons.mp hd
    have hname : m.store name = none := hunset name (by simp)
    have hunset' : ∀ other ∈ rest.map Prod.fst, (m.set name value).store other = none := by
      intro other hother
      have hne : other ≠ name := fun heq => hfirst (heq ▸ hother)
      rw [store_set, if_neg hne]
      exact hunset other (List.mem_cons_of_mem _ hother)
    obtain ⟨m', hm', hresult, hset, hkept⟩ := ih hrest hunset'
    refine ⟨m', ?_, hresult, ?_, ?_⟩
    · simp only [declareAll, declare, hname]
      exact hm'
    · intro other v hv
      rcases List.mem_cons.mp hv with heq | hv
      · cases heq
        rw [hkept name hfirst, store_set, if_pos rfl]
      · exact hset other v hv
    · intro other hother
      rw [List.map_cons, List.mem_cons, not_or] at hother
      rw [hkept other hother.2, store_set, if_neg hother.1]

theorem finish_of_none {m : Machine V} (h : m.result = none) (value : V) :
    m.finish value = some { m with result := some value } := by
  simp [finish, h]

end Machine

/-! ## Statements -/

/-- The value of the expression that a template finds for an input. Where something is connected to
the input, the expression is the name of a variable; elsewhere it must be the default in shader
text. -/
def inputValue (I : Interpretation V) (m : Machine V) (port : Port) (sources : List Connection)
    (expression : String) : Option V :=
  if sources.isEmpty then do
    let literal ← port.default
    guard (literal.toGlsl = expression)
    return I.literal literal
  else
    m.store expression

/-- The literal of a parameter. It must be what the template finds for the parameter, in shader
text. -/
def boundLiteral (n : Node) (b : Bindings) (p : Parameter) : Option Literal := do
  let literal ← (parameterLiteral n p).toOption
  guard (b.parameters.get? p.name = some literal.toGlsl)
  return literal

/-- The variables that the template of a node writes, and their values. -/
def templateWrites (I : Interpretation V) (t : NodeType) (template : Template) (b : Bindings)
    (values : List V) (literals : List Literal) : Option (List (String × V)) := do
  let outputs ← (t.outputs.filter (fun port => !port.uniform)).mapM fun port => do
    return (← b.outputs.get? port.name, I.output t values literals port.name)
  let temporaries := template.temporaries.map fun name =>
    (temporaryName b.stem name, I.temporary t values literals name)
  return outputs ++ temporaries

namespace Graph

/-- The values of the expressions that a template finds for the inputs of a node. -/
def inputValues (I : Interpretation V) (r : Registry) (g : Graph) (m : Machine V) (id : String)
    (t : NodeType) (b : Bindings) : Option (List V) :=
  t.inputs.zipIdx.mapM fun input => do
    inputValue I m input.1 (connectionsInto (g.connections r) id input.2)
      (← b.inputs.get? input.1.name)

/-- Executes a statement. Its text must be what the template of its node renders to, and the
variables that it declares those that the template writes. -/
def execute (I : Interpretation V) (r : Registry) (g : Graph) (m : Machine V) (s : Statement) :
    Option (Machine V) := do
  let n ← g.node? s.node
  let t ← r.type? n.typeId
  let template ← t.parseTemplate.toOption
  let inputs ← (bindInputs r g (g.stems r) s.node t).toOption
  let parameters ← (bindParameters n t).toOption
  let b := nodeBindings t ((g.stems r).get s.node) inputs parameters
  guard ((template.render b).toOption = some s.text)
  let values ← g.inputValues I r m s.node t b
  let literals ← t.parameters.mapM (boundLiteral n b)
  let written ← templateWrites I t template b values literals
  guard (written.map Prod.fst = s.declares)
  let m ← m.declareAll written
  if t.category = .output then m.finish (I.result t values literals) else some m

/-- Executes statements in turn. -/
def run (I : Interpretation V) (r : Registry) (g : Graph) (m : Machine V)
    (statements : List Statement) : Option (Machine V) := statements.foldlM (g.execute I r) m

/-- The uniform outputs of a node. -/
def uniformPorts (r : Registry) (g : Graph) (id : String) : List Port :=
  match g.typeOf? r id with
  | some t => t.outputs.filter Port.uniform
  | none => []

/-- The uniforms of a schedule with the values that the host gives them. -/
def uniformCells (builtin : String → V) (host : String → String → V) (r : Registry) (g : Graph)
    (s : Schedule) : List (String × V) :=
  builtinUniforms.map (fun u => (u.name, builtin u.name)) ++
    s.order.flatMap fun id => (g.uniformPorts r id).map fun port =>
      (outputVariable ((g.stems r).get id) port, host id port.name)

/-- The machine before the first statement, with nothing but the uniforms set. -/
def start (builtin : String → V) (host : String → String → V) (r : Registry) (g : Graph)
    (s : Schedule) : Machine V :=
  ⟨fun name => (g.uniformCells builtin host r s).lookup name, none⟩

variable {r : Registry} {g : Graph} {s : Schedule} {prune : Bool} {builtin : String → V}
  {host : String → String → V}

/-! ## The start -/

theorem lookup_of_unique {cells : List (String × V)} {name : String} {v : V}
    (h : (name, v) ∈ cells) (hu : ∀ w, (name, w) ∈ cells → w = v) : cells.lookup name = some v := by
  induction cells with
  | nil => cases h
  | cons cell rest ih =>
    obtain ⟨other, w⟩ := cell
    by_cases heq : name = other
    · subst heq
      rw [List.lookup_cons_self, hu w List.mem_cons_self]
    · rw [List.lookup_cons, beq_eq_false_iff_ne.mpr heq]
      refine ih ((List.mem_cons.mp h).resolve_left ?_) fun w hw => hu w (List.mem_cons_of_mem _ hw)
      rintro ⟨⟩
      exact heq rfl

theorem mem_uniformPorts {id : String} {port : Port} :
    port ∈ g.uniformPorts r id ↔
      ∃ t, g.typeOf? r id = some t ∧ port ∈ t.outputs ∧ port.uniform = true := by
  cases ht : g.typeOf? r id <;> simp [uniformPorts, ht]

theorem mem_uniformCells {name : String} {v : V} :
    (name, v) ∈ g.uniformCells builtin host r s ↔
      (∃ u ∈ builtinUniforms, name = u.name ∧ v = builtin u.name) ∨
      ∃ id ∈ s.order, ∃ port ∈ g.uniformPorts r id,
        name = outputVariable ((g.stems r).get id) port ∧ v = host id port.name := by
  simp only [uniformCells, List.mem_append, List.mem_map, List.mem_flatMap, Prod.mk.injEq, eq_comm]

theorem head?_builtin : ∀ u ∈ builtinUniforms, u.name.toList.head? = some 'i' := by decide

/-- A uniform output has the host's value from the start. -/
theorem start_uniform (hs : g.schedule r prune = .ok s) {id : String} {port : Port}
    (hid : id ∈ s.order) (hp : port ∈ g.uniformPorts r id) :
    (g.start builtin host r s).store (outputVariable ((g.stems r).get id) port) =
      some (host id port.name) := by
  obtain ⟨t, ht, hport, hu⟩ := mem_uniformPorts.mp hp
  refine lookup_of_unique (mem_uniformCells.mpr (.inr ⟨id, hid, port, hp, rfl, rfl⟩)) ?_
  intro w hw
  rcases mem_uniformCells.mp hw with ⟨u, hb, hname, -⟩ | ⟨other, hother, q, hq, hname, rfl⟩
  · have hhead := head?_outputVariable ((g.stems r).get id) hu
    rw [hname, head?_builtin u hb] at hhead
    simp at hhead
  · obtain ⟨t', ht', hq, -⟩ := mem_uniformPorts.mp hq
    obtain ⟨rfl, hsame⟩ := outputVariable_unique ((mem_order hs).mp hid).1
      ((mem_order hs).mp hother).1 ht ht' hport hq hname
    rw [hsame]

/-- No other variable is set at the start. -/
theorem start_likeStem {name : String} (h : LikeStem name) :
    (g.start builtin host r s).store name = none := by
  refine List.lookup_eq_none_iff.mpr fun cell hcell => ?_
  obtain ⟨other, v⟩ := cell
  rw [bne_iff_ne]
  rintro rfl
  rcases mem_uniformCells.mp hcell with ⟨u, hb, rfl, -⟩ | ⟨id, -, port, hp, rfl, -⟩
  · have hhead := h.head?
    rw [head?_builtin u hb] at hhead
    simp at hhead
  · obtain ⟨_, _, _, hu⟩ := mem_uniformPorts.mp hp
    exact not_likeStem_outputVariable _ hu h

theorem nodeUniforms_names {n : Node} {t : NodeType} {stem : String} {uniforms : List Uniform}
    (h : nodeUniforms n t stem = .ok uniforms) :
    uniforms.map Uniform.name = (t.outputs.filter Port.uniform).map (outputVariable stem) := by
  refine map_eq_of_forall₂ ((mapM_eq_ok.mp h).imp fun port u hu => ?_)
  obtain ⟨_, _, hu⟩ := bind_eq_ok.mp hu
  cases hu
  rfl

theorem fragments_uniforms {order : List String} {fragments : List Fragment}
    (hall : List.Forall₂ (fun id f => g.fragment r (g.stems r) id = .ok f) order fragments) :
    (fragments.flatMap Fragment.uniforms).map Uniform.name =
      order.flatMap fun id =>
        (g.uniformPorts r id).map (outputVariable ((g.stems r).get id)) := by
  induction hall with
  | nil => rfl
  | cons hf _ ih =>
    obtain ⟨n, t, _, hn, ht, -, hu, -⟩ := fragment_ok hf
    have htype := typeOf?_eq_some_iff.mpr ⟨n, hn, ht⟩
    rw [List.flatMap_cons, List.map_append, List.flatMap_cons, ih, nodeUniforms_names hu,
      uniformPorts, htype]

/-- The names that are set at the start are those of the shader's uniforms. -/
theorem uniformCells_names {entry : EntryPoint} {shader : Shader}
    (h : g.emit r entry s = .ok shader) :
    (g.uniformCells builtin host r s).map Prod.fst = shader.uniforms.map Uniform.name := by
  obtain ⟨fragments, hall, huniforms, -⟩ := emit_ok h
  rw [huniforms, List.map_append, fragments_uniforms hall, uniformCells, List.map_append,
    List.map_map, List.map_flatMap]
  simp only [List.map_map]
  rfl

end Graph

end NodeShader
