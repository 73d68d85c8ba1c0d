import Mathlib.Data.Fintype.Card
import Mathlib.Data.Fintype.Prod
import NodeShader.Proofs.Adjacency
import NodeShader.Proofs.Failure
import NodeShader.Proofs.Runs
import NodeShader.Shader.Emission

/-!
# Names of variables do not collide

Every name that a node takes is made from its stem by an injective function
(`takenNames_eq_map`), so a claimed name stands in the way of few candidates, and the search
for a stem ends at the first one whose names are all free (`freeStem_least`).

* `Graph.exists_searchEnds`: so it is for every node of a graph, where the names of the nodes
  before it are claimed;
* `Graph.taken_disjoint`: two nodes of a graph take no name in common;
* `outputVariable_inj`: neither do two outputs of one node.
-/

namespace NodeShader

/-! ## The names of one node -/

theorem outputVariable_injective (port : Port) :
    Function.Injective fun stem => outputVariable stem port := by
  intro a b h
  simp only [outputVariable] at h
  split at h <;> simpa [String.append_assoc] using h

theorem temporaryName_injective (name : String) :
    Function.Injective fun stem => temporaryName stem name := by
  intro a b h
  simpa [temporaryName, String.append_assoc] using h

/-- The names of a node are made from its stem, each by an injective function. -/
theorem takenNames_eq_map (type : Option NodeType) :
    ∃ makers : List (String → String), (∀ f ∈ makers, Function.Injective f) ∧
      ∀ stem, takenNames type stem = makers.map (· stem) := by
  cases type with
  | none => exact ⟨[id], by simp [Function.injective_id], fun stem => rfl⟩
  | some t =>
    have houtputs : ∀ f ∈ id :: t.outputs.map (fun port stem => outputVariable stem port),
        Function.Injective f := by
      intro f hf
      rcases List.mem_cons.mp hf with rfl | hf
      · exact Function.injective_id
      · obtain ⟨port, -, rfl⟩ := List.mem_map.mp hf
        exact outputVariable_injective port
    cases hparse : Template.parse t.template with
    | error e =>
      refine ⟨id :: t.outputs.map fun port stem => outputVariable stem port, houtputs, ?_⟩
      intro stem
      simp [takenNames, hparse, Function.comp_def]
    | ok template =>
      refine ⟨(id :: t.outputs.map fun port stem => outputVariable stem port) ++
        template.temporaries.map fun name stem => temporaryName stem name, fun f hf => ?_,
        fun stem => ?_⟩
      · rcases List.mem_append.mp hf with hf | hf
        · exact houtputs f hf
        · obtain ⟨name, -, rfl⟩ := List.mem_map.mp hf
          exact temporaryName_injective name
      · simp [takenNames, hparse, Function.comp_def]

theorem outputVariable_mem_takenNames {t : NodeType} {port : Port} (hp : port ∈ t.outputs)
    (stem : String) : outputVariable stem port ∈ takenNames (some t) stem := by
  simp only [takenNames]
  exact List.mem_append_left _ (List.mem_cons_of_mem _ (List.mem_map.mpr ⟨port, hp, rfl⟩))

theorem temporaryName_mem_takenNames {t : NodeType} {template : Template}
    (ht : Template.parse t.template = .ok template) {name : String}
    (hn : name ∈ template.temporaries) (stem : String) :
    temporaryName stem name ∈ takenNames (some t) stem := by
  simp only [takenNames, ht]
  exact List.mem_append_right _ (List.mem_map.mpr ⟨name, hn, rfl⟩)

/-! ## The search for a stem -/

theorem toString_injective : Function.Injective fun n : Nat => toString n := by
  intro a b h
  simp only [Nat.toString_eq_ofList_toDigits] at h
  have hd : Nat.toDigits 10 a = Nat.toDigits 10 b := String.ofList_injective h
  rw [← Nat.ofDigitChars_ten_toDigits (n := a), hd, Nat.ofDigitChars_ten_toDigits]

theorem stemCandidate_injective (base : String) : Function.Injective (stemCandidate base) := by
  -- a candidate with a number is longer than the base
  have hlonger : ∀ n : Nat, base ≠ base ++ "_" ++ toString n := fun n h => by
    have hlength := congrArg String.length h
    rw [String.length_append, String.length_append, show "_".length = 1 from rfl] at hlength
    omega
  intro m n h
  simp only [stemCandidate] at h
  split at h <;> split at h
  · omega
  · exact absurd h (hlonger _)
  · exact absurd h.symm (hlonger _)
  · have := toString_injective ((String.append_right_inj _).mp h)
    omega

/-- The search ends at the first free candidate, if there is one within reach. -/
theorem firstFree_least {isFree : String → Bool} {base : String} {tries n k : Nat}
    (hk : k ≤ tries) (h : isFree (stemCandidate base (n + k)) = true) :
    ∃ m, firstFree isFree base tries n = stemCandidate base m ∧
      isFree (stemCandidate base m) = true ∧
      ∀ j, n ≤ j → j < m → isFree (stemCandidate base j) = false := by
  induction tries generalizing n k with
  | zero =>
    obtain rfl : k = 0 := by omega
    exact ⟨n, rfl, h, fun j hj hlt => by omega⟩
  | succ tries ih =>
    simp only [firstFree]
    split
    next hfree => exact ⟨n, rfl, hfree, fun j hj hlt => by omega⟩
    next hbusy =>
      cases k with
      | zero => exact absurd h hbusy
      | succ k =>
        rw [show n + (k + 1) = n + 1 + k by omega] at h
        obtain ⟨m, heq, hfree, hleast⟩ := ih (by omega) h
        refine ⟨m, heq, hfree, fun j hj hlt => ?_⟩
        rcases Nat.eq_or_lt_of_le hj with rfl | hj
        · exact Bool.eq_false_of_not_eq_true hbusy
        · exact hleast j hj hlt

/-- Among enough candidates there is one none of whose names is claimed. -/
theorem exists_free_candidate (type : Option NodeType) (base : String) (claimed : List String) :
    ∃ k ≤ claimed.length * (takenNames type base).length,
      ∀ name ∈ takenNames type (stemCandidate base k), name ∉ claimed := by
  obtain ⟨makers, hinj, hmap⟩ := takenNames_eq_map type
  by_contra hc
  push Not at hc
  rw [hmap, List.length_map] at hc
  -- every candidate is stopped by one of its names, so there would be more names than there are
  have hstop : ∀ k : Fin (claimed.length * makers.length + 1),
      ∃ p : Fin claimed.length × Fin makers.length,
        makers[p.2] (stemCandidate base k) = claimed[p.1] := by
    intro k
    obtain ⟨name, hname, hclaimed⟩ := hc k (Nat.lt_succ_iff.mp k.2)
    rw [hmap] at hname
    obtain ⟨f, hf, rfl⟩ := List.mem_map.mp hname
    obtain ⟨i, hi, hif⟩ := List.mem_iff_getElem.mp hf
    obtain ⟨j, hj, hjn⟩ := List.mem_iff_getElem.mp hclaimed
    refine ⟨(⟨j, hj⟩, ⟨i, hi⟩), ?_⟩
    simp only [Fin.getElem_fin, hif, hjn]
  choose stop hstop using hstop
  have hstopInj : Function.Injective stop := by
    intro a b hab
    have hb := hstop b
    rw [← hab] at hb
    have h := (hstop a).trans hb.symm
    exact Fin.ext (stemCandidate_injective base (hinj _ (List.getElem_mem _) h))
  have hcard := Fintype.card_le_of_injective stop hstopInj
  simp only [Fintype.card_fin, Fintype.card_prod] at hcard
  omega

/-- The stem that is found is the first candidate none of whose names is claimed. -/
theorem freeStem_least (type : Option NodeType) (base : String) (claimed : List String) :
    ∃ n, freeStem type base claimed = stemCandidate base n ∧
      (∀ name ∈ takenNames type (stemCandidate base n), name ∉ claimed) ∧
      ∀ m < n, ∃ name ∈ takenNames type (stemCandidate base m), name ∈ claimed := by
  obtain ⟨k, hk, hfree⟩ := exists_free_candidate type base claimed
  obtain ⟨n, heq, hn, hleast⟩ := @firstFree_least
    (fun stem => (takenNames type stem).all fun name => !claimed.contains name) base
    _ 0 k hk (by simpa using hfree)
  refine ⟨n, heq, by simpa using hn, fun m hm => ?_⟩
  simpa using hleast m (Nat.zero_le m) hm

/-! ## The stems of all nodes -/

section Assign

variable {typeOf : String → Option NodeType} {claimed ids : List String} {id other : String}

theorem get_assignStems_self :
    (assignStems typeOf claimed (id :: ids)).get id =
      freeStem (typeOf id) (variableStem id) claimed := by
  simp [assignStems, Stems.get]

theorem get_assignStems_of_ne (h : other ≠ id) :
    (assignStems typeOf claimed (id :: ids)).get other =
      (assignStems typeOf
        (takenNames (typeOf id) (freeStem (typeOf id) (variableStem id) claimed) ++ claimed)
          ids).get other := by
  simp [assignStems, Stems.get, List.lookup_cons, beq_eq_false_iff_ne.mpr h]

/-- Whether a name is claimed when the stem of `id` is sought: from the start, or by a node that
comes before it. -/
def ClaimedBefore (typeOf : String → Option NodeType) (claimed ids : List String)
    (id name : String) : Prop :=
  name ∈ claimed ∨ ∃ other ∈ ids, other < id ∧
    name ∈ takenNames (typeOf other) ((assignStems typeOf claimed ids).get other)

theorem claimedBefore_self (h : ∀ x ∈ ids, id < x) {name : String} :
    ClaimedBefore typeOf claimed (id :: ids) id name ↔ name ∈ claimed := by
  refine or_iff_left ?_
  rintro ⟨x, hx, hlt, -⟩
  rcases List.mem_cons.mp hx with rfl | hx
  · exact String.lt_irrefl x hlt
  · exact String.lt_asymm hlt (h x hx)

theorem claimedBefore_cons (h : ∀ x ∈ ids, id < x) (hother : other ∈ ids) {name : String} :
    ClaimedBefore typeOf claimed (id :: ids) other name ↔
      ClaimedBefore typeOf
        (takenNames (typeOf id) (freeStem (typeOf id) (variableStem id) claimed) ++ claimed)
        ids other name := by
  have hget : ∀ x ∈ ids, (assignStems typeOf claimed (id :: ids)).get x =
      (assignStems typeOf
        (takenNames (typeOf id) (freeStem (typeOf id) (variableStem id) claimed) ++ claimed)
          ids).get x := by
    intro x hx
    have hne : x ≠ id := fun heq => String.lt_irrefl id (heq ▸ h x hx)
    exact get_assignStems_of_ne hne
  simp only [ClaimedBefore, List.mem_append, List.mem_cons]
  constructor
  · rintro (hclaimed | ⟨x, rfl | hx, hlt, hname⟩)
    · exact .inl (.inr hclaimed)
    · rw [get_assignStems_self] at hname
      exact .inl (.inl hname)
    · rw [hget x hx] at hname
      exact .inr ⟨x, hx, hlt, hname⟩
  · rintro ((hname | hclaimed) | ⟨x, hx, hlt, hname⟩)
    · rw [← get_assignStems_self] at hname
      exact .inr ⟨id, .inl rfl, h other hother, hname⟩
    · exact .inl hclaimed
    · rw [← hget x hx] at hname
      exact .inr ⟨x, .inr hx, hlt, hname⟩

/-- Every node of an ascending list gets the first candidate none of whose names is claimed
before. -/
theorem assignStems_least (h : ids.Pairwise (· < ·)) : ∀ id ∈ ids, ∃ n,
    (assignStems typeOf claimed ids).get id = stemCandidate (variableStem id) n ∧
      (∀ name ∈ takenNames (typeOf id) (stemCandidate (variableStem id) n),
        ¬ ClaimedBefore typeOf claimed ids id name) ∧
      ∀ m < n, ∃ name ∈ takenNames (typeOf id) (stemCandidate (variableStem id) m),
        ClaimedBefore typeOf claimed ids id name := by
  induction ids generalizing claimed with
  | nil => simp
  | cons first ids ih =>
    obtain ⟨hfirst, hrest⟩ := List.pairwise_cons.mp h
    intro id hid
    rcases List.mem_cons.mp hid with rfl | hid
    · simp only [get_assignStems_self, claimedBefore_self hfirst]
      exact freeStem_least (typeOf id) (variableStem id) claimed
    · have hne : id ≠ first := fun heq => String.lt_irrefl first (heq ▸ hfirst id hid)
      rw [get_assignStems_of_ne hne]
      simp only [claimedBefore_cons hfirst hid]
      exact ih hrest id hid

theorem exists_firstFree (isFree : String → Bool) (base : String) (tries n : Nat) :
    ∃ m, firstFree isFree base tries n = stemCandidate base m := by
  induction tries generalizing n with
  | zero => exact ⟨n, rfl⟩
  | succ tries ih =>
    simp only [firstFree]
    split
    · exact ⟨n, rfl⟩
    · exact ih (n + 1)

/-- Every id has a candidate, be it in the list or not. -/
theorem exists_get_assignStems (id : String) :
    ∃ n, (assignStems typeOf claimed ids).get id = stemCandidate (variableStem id) n := by
  induction ids generalizing claimed with
  | nil => exact ⟨0, rfl⟩
  | cons first ids ih =>
    by_cases h : id = first
    · subst h
      rw [get_assignStems_self]
      exact exists_firstFree _ _ _ _
    · rw [get_assignStems_of_ne h]
      exact ih

theorem Graph.exists_stemCandidate (r : Registry) (g : Graph) (id : String) :
    ∃ n, (g.stems r).get id = stemCandidate (variableStem id) n := exists_get_assignStems id

end Assign

namespace Graph

variable {r : Registry} {g : Graph} {a b : String}

/-- The names that a node of a graph takes. -/
def namesOf (r : Registry) (g : Graph) (id : String) : List String :=
  takenNames (g.typeOf? r id) ((g.stems r).get id)

/-- The search for the stem of a node tries the candidates in turn and ends at the one of this
number: those before it clash with a name of an earlier node, and it clashes with none. -/
structure SearchEnds (r : Registry) (g : Graph) (id : String) (n : Nat) : Prop where
  busy : ∀ m < n, ∃ name ∈ takenNames (g.typeOf? r id) (stemCandidate (variableStem id) m),
    ∃ other ∈ g.ids, other < id ∧ name ∈ g.namesOf r other
  free : ∀ name ∈ takenNames (g.typeOf? r id) (stemCandidate (variableStem id) n),
    ∀ other ∈ g.ids, other < id → name ∉ g.namesOf r other
  found : (g.stems r).get id = stemCandidate (variableStem id) n

theorem exists_searchEnds {id : String} (hid : id ∈ g.ids) : ∃ n, g.SearchEnds r id n := by
  obtain ⟨n, hfound, hfree, hbusy⟩ :=
    @assignStems_least (g.typeOf? r) [] g.ids (pairwise_ascendingIds _) id hid
  refine ⟨n, fun m hm => ?_, fun name hname other hother hlt htaken => ?_, hfound⟩
  · obtain ⟨name, hname, hclaimed⟩ := hbusy m hm
    exact ⟨name, hname, hclaimed.resolve_left List.not_mem_nil⟩
  · exact hfree name hname (.inr ⟨other, hother, hlt, htaken⟩)

/-- Two nodes of a graph take no name in common. -/
theorem taken_disjoint (ha : a ∈ g.ids) (hb : b ∈ g.ids) (hab : a ≠ b) {name : String}
    (hname : name ∈ takenNames (g.typeOf? r a) ((g.stems r).get a)) :
    name ∉ takenNames (g.typeOf? r b) ((g.stems r).get b) := by
  -- the later node of the two avoids the names of the earlier one
  have hlater : ∀ {a b : String}, a ∈ g.ids → b ∈ g.ids → a < b → ∀ name,
      name ∈ g.namesOf r b → name ∉ g.namesOf r a := by
    intro a b ha hb hlt name hname
    obtain ⟨n, hn⟩ := exists_searchEnds (r := r) hb
    rw [namesOf, hn.found] at hname
    exact hn.free name hname a ha hlt
  by_cases hlt : a < b
  · exact fun hname' => hlater ha hb hlt name hname' hname
  · have hgt : b < a := Std.lt_of_le_of_ne (String.not_lt.mp hlt) (Ne.symm hab)
    exact hlater hb ha hgt name hname

end Graph

/-! ## How names begin -/

/-- Whether a name begins as stems do. -/
def LikeStem (name : String) : Prop := ∃ rest, name = "v_" ++ rest

theorem LikeStem.append {name : String} (h : LikeStem name) (more : String) :
    LikeStem (name ++ more) := by
  obtain ⟨rest, rfl⟩ := h
  exact ⟨rest ++ more, String.append_assoc⟩

theorem likeStem_variableStem (id : String) : LikeStem (variableStem id) := by
  rw [variableStem_eq (maximalRuns_iff.mpr rfl)]
  split
  · exact ⟨"node", rfl⟩
  · exact ⟨_, rfl⟩

theorem likeStem_stemCandidate {base : String} (h : LikeStem base) (n : Nat) :
    LikeStem (stemCandidate base n) := by
  rw [stemCandidate]
  split
  · exact h
  · exact (h.append "_").append _

theorem Graph.likeStem_stems (r : Registry) (g : Graph) (id : String) :
    LikeStem ((g.stems r).get id) := by
  obtain ⟨n, hn⟩ := g.exists_stemCandidate r id
  rw [hn]
  exact likeStem_stemCandidate (likeStem_variableStem id) n

theorem likeStem_outputVariable {stem : String} (h : LikeStem stem) {port : Port}
    (hp : port.uniform = false) : LikeStem (outputVariable stem port) := by
  simp only [outputVariable, hp, Bool.false_eq_true, if_false]
  exact (h.append "_").append _

theorem likeStem_temporaryName {stem : String} (h : LikeStem stem) (name : String) :
    LikeStem (temporaryName stem name) := (h.append "_").append name

theorem LikeStem.head? {name : String} (h : LikeStem name) : name.toList.head? = some 'v' := by
  obtain ⟨rest, rfl⟩ := h
  simp

theorem head?_outputVariable (stem : String) {port : Port} (hp : port.uniform = true) :
    (outputVariable stem port).toList.head? = some 'u' := by
  simp [outputVariable, hp, String.append_assoc]

/-- The names of uniforms begin otherwise than stems do. -/
theorem not_likeStem_outputVariable (stem : String) {port : Port} (hp : port.uniform = true) :
    ¬ LikeStem (outputVariable stem port) := by
  intro h
  have := h.head?
  rw [head?_outputVariable stem hp] at this
  simp at this

/-- Two outputs of one node with different names have different variables. -/
theorem outputVariable_inj {stem : String} (hs : LikeStem stem) {p q : Port}
    (h : outputVariable stem p = outputVariable stem q) : p.name = q.name := by
  cases hp : p.uniform <;> cases hq : q.uniform
  · simpa [outputVariable, hp, hq] using h
  · exact absurd (h ▸ likeStem_outputVariable hs hp) (not_likeStem_outputVariable stem hq)
  · exact absurd (h ▸ likeStem_outputVariable hs hq) (not_likeStem_outputVariable stem hp)
  · simpa [outputVariable, hp, hq] using h

/-- The variable of an output tells its node and its name. -/
theorem Graph.outputVariable_unique {r : Registry} {g : Graph} {a b : String} {t u : NodeType}
    {p q : Port} (ha : a ∈ g.ids) (hb : b ∈ g.ids) (hat : g.typeOf? r a = some t)
    (hbu : g.typeOf? r b = some u) (hp : p ∈ t.outputs) (hq : q ∈ u.outputs)
    (h : outputVariable ((g.stems r).get a) p = outputVariable ((g.stems r).get b) q) :
    a = b ∧ p.name = q.name := by
  by_cases hab : a = b
  · subst hab
    exact ⟨rfl, outputVariable_inj (g.likeStem_stems r a) h⟩
  · have hfirst := outputVariable_mem_takenNames hp ((g.stems r).get a)
    have hsecond := outputVariable_mem_takenNames hq ((g.stems r).get b)
    rw [← hat] at hfirst
    rw [← hbu, ← h] at hsecond
    exact absurd hsecond (taken_disjoint ha hb hab hfirst)

/-! ## The names that a node declares -/

theorem nodup_eraseDups (names : List String) : names.eraseDups.Nodup := by
  induction hlength : names.length using Nat.strongRecOn generalizing names with
  | ind length ih =>
    cases names with
    | nil => simp
    | cons name rest =>
      rw [List.eraseDups_cons, List.nodup_cons, List.mem_eraseDups]
      have hshorter : (rest.filter fun b => !b == name).length < length := by
        rw [← hlength, List.length_cons]
        exact Nat.lt_succ_of_le (List.length_filter_le _ _)
      exact ⟨by simp, ih _ hshorter _ rfl⟩

theorem nodup_temporaries (template : Template) : template.temporaries.Nodup := nodup_eraseDups _

theorem mem_filter_not_uniform {ports : List Port} {port : Port} :
    port ∈ ports.filter (fun port => !port.uniform) ↔ port ∈ ports ∧ port.uniform = false := by
  simp

/-- A node declares no name twice, unless a temporary has the name of an output. -/
theorem nodup_declaredNames {t : NodeType} {template : Template} {stem : String}
    (hd : (t.outputs.map Port.name).Nodup)
    (hapart : ∀ name ∈ template.temporaries, ∀ port ∈ t.outputs, port.uniform = false →
      port.name ≠ name) : (declaredNames t template stem).Nodup := by
  rw [declaredNames]
  have houtputs : (t.outputs.filter fun port => !port.uniform).Nodup :=
    (List.Nodup.of_map _ hd).filter _
  refine List.nodup_append.mpr ⟨?_, ?_, ?_⟩
  · refine houtputs.map_on fun p hp q hq h => ?_
    obtain ⟨hp, hpu⟩ := mem_filter_not_uniform.mp hp
    obtain ⟨hq, hqu⟩ := mem_filter_not_uniform.mp hq
    refine List.inj_on_of_nodup_map hd hp hq ?_
    simpa [outputVariable, hpu, hqu] using h
  · exact (nodup_temporaries template).map_on fun a _ b _ h => by simpa [temporaryName] using h
  · intro name hname other hother heq
    obtain ⟨port, hport, rfl⟩ := List.mem_map.mp hname
    obtain ⟨temporary, htemporary, rfl⟩ := List.mem_map.mp hother
    obtain ⟨hport, hu⟩ := mem_filter_not_uniform.mp hport
    refine hapart temporary htemporary port hport hu ?_
    simpa [outputVariable, hu, temporaryName] using heq

/-- The names that a node declares are among those it takes. -/
theorem declaredNames_subset {t : NodeType} {template : Template}
    (ht : t.parseTemplate = .ok template) (stem : String) {name : String}
    (h : name ∈ declaredNames t template stem) : name ∈ takenNames (some t) stem := by
  have hparse : Template.parse t.template = .ok template := by
    obtain ⟨parsed, hparsed, h⟩ := bind_eq_ok.mp ht
    split at h
    · cases h
    · cases h
      exact hparsed
  rcases List.mem_append.mp h with h | h
  · obtain ⟨port, hport, rfl⟩ := List.mem_map.mp h
    exact outputVariable_mem_takenNames (mem_filter_not_uniform.mp hport).1 stem
  · obtain ⟨temporary, htemporary, rfl⟩ := List.mem_map.mp h
    exact temporaryName_mem_takenNames hparse htemporary stem

theorem likeStem_of_mem_declaredNames {t : NodeType} {template : Template} {stem : String}
    (hs : LikeStem stem) {name : String} (h : name ∈ declaredNames t template stem) :
    LikeStem name := by
  rcases List.mem_append.mp h with h | h
  · obtain ⟨port, hport, rfl⟩ := List.mem_map.mp h
    exact likeStem_outputVariable hs (mem_filter_not_uniform.mp hport).2
  · obtain ⟨temporary, -, rfl⟩ := List.mem_map.mp h
    exact likeStem_temporaryName hs temporary

end NodeShader
