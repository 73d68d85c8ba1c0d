import NodeShader.Catalog
import NodeShader.Proofs.Naming
import NodeShader.Proofs.Rendering

/-!
# Including helper functions

A registry is made by registering types and helpers, and lists its helpers in the order in which
their names were first registered (`Registry.names_ofRegistrations`). All registries with distinct
names can be made so, the catalog among them (`Registry.eq_ofRegistrations`). A shader has those
helpers that are reached from the ones its types list, in that order.

* `Registry.Includes` says what is included, and why nothing can be.
* `helpers_included`: helpers are included in this sense, for any needs and for those of the nodes
  of a schedule.
-/

namespace NodeShader

open Relation (ReflTransGen)

/-! ## Registration -/

/-- What is put into a registry. -/
inductive Registration where
  | type (t : NodeType)
  | helper (h : HelperFunction)

/-- The name of a helper that is registered. -/
def Registration.helperName? : Registration → Option String
  | type _ => none
  | helper h => some h.name

theorem map_upsert {α : Type} (key : α → String) (x : α) (xs : List α) :
    (upsert key x xs).map key =
      if key x ∈ xs.map key then xs.map key else xs.map key ++ [key x] := by
  induction xs with
  | nil => simp [upsert]
  | cons y rest ih =>
    by_cases h : key y = key x
    · simp [upsert, h]
    · have hne : key x ≠ key y := Ne.symm h
      simp only [upsert, if_neg h, List.map_cons, ih, List.mem_cons, hne, false_or]
      split <;> rfl

theorem upsert_of_notMem {α : Type} {key : α → String} {x : α} {xs : List α}
    (h : key x ∉ xs.map key) : upsert key x xs = xs ++ [x] := by
  induction xs with
  | nil => rfl
  | cons y rest ih =>
    rw [List.map_cons, List.mem_cons, not_or] at h
    rw [upsert, if_neg (Ne.symm h.1), ih h.2, List.cons_append]

theorem foldl_upsert {α : Type} {key : α → String} {xs ys : List α}
    (h : ((xs ++ ys).map key).Nodup) :
    ys.foldl (fun items x => upsert key x items) xs = xs ++ ys := by
  induction ys generalizing xs with
  | nil => simp
  | cons y ys ih =>
    have hnew : key y ∉ xs.map key := by
      rw [List.map_append, List.map_cons] at h
      exact fun hmem => List.disjoint_of_nodup_append h hmem List.mem_cons_self
    have hrest : xs ++ y :: ys = xs ++ [y] ++ ys := by simp
    rw [hrest] at h ⊢
    rw [List.foldl_cons, upsert_of_notMem hnew, ih h]

namespace Registry

def register (r : Registry) : Registration → Registry
  | .type t => r.addType t
  | .helper h => r.addHelper h

/-- The registry after some registrations. -/
def ofRegistrations (steps : List Registration) : Registry := steps.foldl register {}

/-- The names of the helpers in the order of registration. A name that is registered again keeps its
place. -/
def registeredNames (steps : List Registration) : List String :=
  (steps.filterMap Registration.helperName?).eraseDups

theorem registeredNames_append_type (steps : List Registration) (t : NodeType) :
    registeredNames (steps ++ [.type t]) = registeredNames steps := by
  have hname : [Registration.type t].filterMap Registration.helperName? = [] := rfl
  rw [registeredNames, List.filterMap_append, hname, List.append_nil, registeredNames]

theorem registeredNames_append_helper (steps : List Registration) (h : HelperFunction) :
    registeredNames (steps ++ [.helper h]) =
      if h.name ∈ registeredNames steps then registeredNames steps
      else registeredNames steps ++ [h.name] := by
  have hname : [Registration.helper h].filterMap Registration.helperName? = [h.name] := rfl
  simp only [registeredNames, List.filterMap_append, hname, List.mem_eraseDups]
  generalize steps.filterMap Registration.helperName? = names
  rw [List.eraseDups_append, List.removeAll]
  by_cases hmem : h.name ∈ names
  · simp [hmem]
  · simp [hmem, List.eraseDups_cons]

theorem names_ofRegistrations (steps : List Registration) :
    (ofRegistrations steps).helpers.map HelperFunction.name = registeredNames steps := by
  induction steps using List.reverseRecOn with
  | nil => rfl
  | append_singleton steps step ih =>
    rw [ofRegistrations, List.foldl_append, ← ofRegistrations]
    cases step with
    | type t =>
      rw [registeredNames_append_type]
      exact ih
    | helper h =>
      rw [registeredNames_append_helper, ← ih]
      exact map_upsert _ _ _

theorem foldl_register_helpers (r : Registry) (helpers : List HelperFunction) :
    (helpers.map Registration.helper).foldl register r =
      ⟨r.types, helpers.foldl (fun items h => upsert HelperFunction.name h items) r.helpers⟩ := by
  induction helpers generalizing r with
  | nil => rfl
  | cons h helpers ih => exact ih (r.addHelper h)

theorem foldl_register_types (r : Registry) (types : List NodeType) :
    (types.map Registration.type).foldl register r =
      ⟨types.foldl (fun items t => upsert NodeType.id t items) r.types, r.helpers⟩ := by
  induction types generalizing r with
  | nil => rfl
  | cons t types ih => exact ih (r.addType t)

/-- A registry with distinct names and ids can be made by registering what it holds. -/
theorem eq_ofRegistrations {r : Registry} (hhelpers : (r.helpers.map HelperFunction.name).Nodup)
    (htypes : (r.types.map NodeType.id).Nodup) :
    r = ofRegistrations (r.helpers.map .helper ++ r.types.map .type) := by
  have hh : r.helpers.foldl (fun items h => upsert HelperFunction.name h items) [] = r.helpers :=
    foldl_upsert hhelpers
  have ht : r.types.foldl (fun items t => upsert NodeType.id t items) [] = r.types :=
    foldl_upsert htypes
  rw [ofRegistrations, List.foldl_append, foldl_register_helpers, foldl_register_types]
  exact congrArg₂ Registry.mk ht.symm hh.symm

/-- The catalog is a registry like any other. -/
theorem catalog_eq_ofRegistrations :
    catalog = ofRegistrations (Catalog.Functions.all.map .helper ++ Catalog.types.map .type) :=
  eq_ofRegistrations (by decide +kernel) (by decide +kernel)

/-! ## What is included -/

/-- A name is reached through requirements from one that is needed. -/
def Wanted (r : Registry) (Needs : String → String → Prop) (name : String) : Prop :=
  ∃ owner start, Needs owner start ∧ ReflTransGen r.Requires start name

/-- What becomes of the needs `Needs owner helper` in a registry with these registered names. If all
that is wanted is registered, exactly that is included, each name once and in the order of
registration, and then a helper stands behind what it requires if it was registered behind it.
Otherwise a helper is missing, and its owner is a helper that is wanted and requires it, or is in
need of it. -/
structure Includes (r : Registry) (registered : List String) (Needs : String → String → Prop)
    (outcome : Except EmissionError (List String)) : Prop where
  succeeds : (∃ functions, outcome = .ok functions) ↔
    ∀ name, r.Wanted Needs name → ∃ helper, r.helper? name = some helper
  exact : ∀ functions, outcome = .ok functions → ∀ name, name ∈ functions ↔ r.Wanted Needs name
  once : ∀ functions, outcome = .ok functions → functions.Nodup
  ordered : ∀ functions, outcome = .ok functions → functions.Sublist registered
  requirements : ∀ functions, outcome = .ok functions → ∀ name ∈ functions, ∀ required,
    r.Requires name required → [required, name].Sublist registered →
      [required, name].Sublist functions
  fails : ∀ err, outcome = .error err → ∃ owner helper, err = .unknownHelper owner helper ∧
    r.helper? helper = none ∧
      (Needs owner helper ∨ r.Wanted Needs owner ∧ r.Requires owner helper)

theorem wanted_iff_reaches {r : Registry} {needed : List (String × String)} {name : String} :
    r.Wanted (fun owner helper => (helper, owner) ∈ needed) name ↔
      r.Reaches (needed.map Prod.fst) name := by
  constructor
  · rintro ⟨owner, start, hneeds, hpath⟩
    exact ⟨start, List.mem_map.mpr ⟨_, hneeds, rfl⟩, hpath⟩
  · rintro ⟨start, hstart, hpath⟩
    obtain ⟨⟨_, owner⟩, hneeds, rfl⟩ := List.mem_map.mp hstart
    exact ⟨owner, _, hneeds, hpath⟩

/-- Only the names that are needed matter for what is included, and all owners for why nothing
can be. -/
theorem Includes.mono {r : Registry} {registered : List String}
    {Needs More : String → String → Prop} {outcome : Except EmissionError (List String)}
    (h : r.Includes registered Needs outcome)
    (hmore : ∀ owner helper, Needs owner helper → More owner helper)
    (hless : ∀ owner helper, More owner helper → ∃ other, Needs other helper) :
    r.Includes registered More outcome := by
  have hwanted (name : String) : r.Wanted More name ↔ r.Wanted Needs name := by
    constructor
    · rintro ⟨owner, start, hneeds, hpath⟩
      obtain ⟨other, hother⟩ := hless owner start hneeds
      exact ⟨other, start, hother, hpath⟩
    · rintro ⟨owner, start, hneeds, hpath⟩
      exact ⟨owner, start, hmore owner start hneeds, hpath⟩
  refine ⟨?_, ?_, h.once, h.ordered, h.requirements, ?_⟩
  · simpa only [hwanted] using h.succeeds
  · simpa only [hwanted] using h.exact
  · intro err herr
    obtain ⟨owner, helper, rfl, hnone, howner⟩ := h.fails err herr
    rw [← hwanted] at howner
    exact ⟨owner, helper, rfl, hnone, howner.imp_left (hmore owner helper)⟩

theorem includes_helpersFor {r : Registry} (hnames : (r.helpers.map HelperFunction.name).Nodup)
    (needed : List (String × String)) :
    r.Includes (r.helpers.map HelperFunction.name) (fun owner helper => (helper, owner) ∈ needed)
      (r.helpersFor needed) where
  succeeds := by
    simp only [wanted_iff_reaches]
    exact exists_helpersFor_iff
  exact functions h name := by rw [mem_helpersFor h, wanted_iff_reaches]
  once functions h := by
    obtain ⟨included, -, rfl⟩ := helpersFor_ok h
    exact hnames.filter _
  ordered functions h := by
    obtain ⟨included, -, rfl⟩ := helpersFor_ok h
    exact List.filter_sublist
  requirements functions h name hname required hrequires hbefore := by
    have hreached : r.Reaches (needed.map Prod.fst) required := by
      obtain ⟨start, hstart, hpath⟩ := (mem_helpersFor h).mp hname
      exact ⟨start, hstart, hpath.tail hrequires⟩
    have hrequired : required ∈ functions := (mem_helpersFor h).mpr hreached
    obtain ⟨included, -, rfl⟩ := helpersFor_ok h
    have hboth := hbefore.filter included.contains
    rwa [List.filter_cons_of_pos (List.mem_filter.mp hrequired).2,
      List.filter_cons_of_pos (List.mem_filter.mp hname).2] at hboth
  fails err h := by
    simp only [wanted_iff_reaches]
    exact helpersFor_error h

end Registry

/-! ## The needs of a schedule -/

/-- One of these nodes is of the type `typeId`, which lists the helper. -/
def Graph.ListsHelper (r : Registry) (g : Graph) (ids : List String) (typeId helper : String) :
    Prop :=
  ∃ id ∈ ids, ∃ t, g.typeOf? r id = some t ∧ t.id = typeId ∧ helper ∈ t.helpers

section

variable {r : Registry} {g : Graph} {ids : List String} {fragments : List Fragment}

theorem listsHelper_iff
    (hall : List.Forall₂ (fun id f => g.fragment r (g.stems r) id = .ok f) ids fragments)
    {typeId helper : String} :
    g.ListsHelper r ids typeId helper ↔ ∃ f ∈ fragments, f.typeId = typeId ∧ helper ∈ f.helpers := by
  constructor
  · rintro ⟨id, hid, t, ht, rfl, hhelper⟩
    obtain ⟨f, hf, hfragment⟩ := exists_of_forall₂ hall hid
    obtain ⟨same, hsame, htype, hhelpers⟩ := Graph.fragment_type hfragment
    rw [ht] at hsame
    cases hsame
    exact ⟨f, hf, htype, hhelpers ▸ hhelper⟩
  · rintro ⟨f, hf, rfl, hhelper⟩
    obtain ⟨id, hid, hfragment⟩ := exists_left_of_forall₂ hall hf
    obtain ⟨t, ht, htype, hhelpers⟩ := Graph.fragment_type hfragment
    exact ⟨id, hid, t, ht, htype.symm, hhelpers ▸ hhelper⟩

end

/-- Where all nodes are written, the functions of a shader are those that the nodes need. -/
theorem Graph.functions_emit {r : Registry} {g : Graph} {s : Schedule} {fragments : List Fragment}
    (hall : List.Forall₂ (fun id f => g.fragment r (g.stems r) id = .ok f) s.order fragments)
    (entry : EntryPoint) :
    (g.emit r entry s).map Shader.functions = r.helpersFor (neededHelpers fragments) := by
  cases h : r.helpersFor (neededHelpers fragments) with
  | ok functions =>
    rw [emit_eq_ok_iff.mpr ⟨fragments, functions, hall, h, rfl⟩]
    rfl
  | error err =>
    have herr : g.emit r entry s = .error err :=
      bind_eq_error.mpr (.inr ⟨fragments, mapM_eq_ok.mpr hall, bind_eq_error.mpr (.inl h)⟩)
    rw [herr]
    rfl

/-- Helpers are included up to the transitive closure of their requirements, in any registry: for
needs with any owners, and for those of the nodes of a schedule, whose owners are types. -/
theorem helpers_included (steps : List Registration) :
    let r := Registry.ofRegistrations steps
    let registered := Registry.registeredNames steps
    (∀ needed, r.Includes registered (fun owner helper => (helper, owner) ∈ needed)
      (r.helpersFor needed)) ∧
    ∀ (g : Graph) (entry : EntryPoint) (s : Schedule),
      (∀ id ∈ s.order, ∃ f, g.fragment r (g.stems r) id = .ok f) →
      r.Includes registered (g.ListsHelper r s.order)
        ((g.emit r entry s).map Shader.functions) := by
  intro r registered
  have hregistered : r.helpers.map HelperFunction.name = registered :=
    Registry.names_ofRegistrations steps
  have hnames : (r.helpers.map HelperFunction.name).Nodup := by
    rw [hregistered]
    exact nodup_eraseDups _
  have hincludes (needed : List (String × String)) :
      r.Includes registered (fun owner helper => (helper, owner) ∈ needed)
        (r.helpersFor needed) := by
    rw [← hregistered]
    exact Registry.includes_helpersFor hnames needed
  refine ⟨hincludes, fun g entry s hall => ?_⟩
  obtain ⟨fragments, hfragments⟩ : ∃ fragments,
      List.Forall₂ (fun id f => g.fragment r (g.stems r) id = .ok f) s.order fragments := by
    cases h : s.order.mapM (g.fragment r (g.stems r)) with
    | ok fragments => exact ⟨fragments, mapM_eq_ok.mp h⟩
    | error err =>
      obtain ⟨before, id, after, hsplit, -, herr⟩ := mapM_eq_error.mp h
      obtain ⟨f, hf⟩ := hall id (by simp [hsplit])
      rw [herr] at hf
      cases hf
  rw [Graph.functions_emit hfragments entry]
  refine (hincludes (neededHelpers fragments)).mono ?_ ?_
  · intro owner helper hneeded
    exact (listsHelper_iff hfragments).mpr (exists_owner_of_mem_neededHelpers hneeded)
  · intro typeId helper hlists
    obtain ⟨f, hf, -, hhelper⟩ := (listsHelper_iff hfragments).mp hlists
    obtain ⟨⟨_, owner⟩, hneeded, rfl⟩ :=
      List.mem_map.mp (mem_neededHelpers.mpr ⟨f, hf, hhelper⟩)
    exact ⟨owner, hneeded⟩

def speckleType : NodeType :=
  { id := "speckle"
    label := "Speckle"
    category := .output
    template := Template.write [.result, .text " = vec4(noise());"]
    helpers := ["noise"] }

/-- Two helpers that require each other, the first of them registered twice, one that requires what
is missing, and a type that lists one of the two. -/
def speckles : List Registration :=
  [.helper ⟨"hash", "float hash();", []⟩, .helper ⟨"noise", "float noise();", ["hash"]⟩,
    .helper ⟨"spare", "float spare();", ["gone"]⟩, .helper ⟨"hash", "float hash();", ["noise"]⟩,
    .type speckleType]

def speckleGraph : Graph := { nodes := [⟨"o", "speckle", ∅⟩] }

theorem speckle_requires_hash {required : String} :
    (Registry.ofRegistrations speckles).Requires "hash" required ↔ required = "noise" := by
  have hhash : (Registry.ofRegistrations speckles).helper? "hash" =
      some ⟨"hash", "float hash();", ["noise"]⟩ := by decide +kernel
  simp [Registry.Requires, hhash]

theorem speckle_requires_noise {required : String} :
    (Registry.ofRegistrations speckles).Requires "noise" required ↔ required = "hash" := by
  have hnoise : (Registry.ofRegistrations speckles).helper? "noise" =
      some ⟨"noise", "float noise();", ["hash"]⟩ := by decide +kernel
  simp [Registry.Requires, hnoise]

theorem speckle_wanted_iff {name : String} :
    (Registry.ofRegistrations speckles).Wanted
        (speckleGraph.ListsHelper (.ofRegistrations speckles) ["o"]) name ↔
      name = "hash" ∨ name = "noise" := by
  have htype : speckleGraph.typeOf? (.ofRegistrations speckles) "o" = some speckleType := by
    decide +kernel
  constructor
  · rintro ⟨typeId, start, ⟨id, hid, t, ht, -, hstart⟩, hpath⟩
    rw [List.mem_singleton.mp hid, htype, Option.some.injEq] at ht
    subst ht
    -- requirements do not lead out of the two helpers
    induction hpath with
    | refl => exact .inr (List.mem_singleton.mp hstart)
    | tail _ hrequires ih =>
      rcases ih with rfl | rfl
      · exact .inr (speckle_requires_hash.mp hrequires)
      · exact .inl (speckle_requires_noise.mp hrequires)
  · have hlists : speckleGraph.ListsHelper (.ofRegistrations speckles) ["o"] "speckle" "noise" :=
      ⟨"o", List.mem_singleton_self _, speckleType, htype, rfl, List.mem_singleton_self _⟩
    rintro (rfl | rfl)
    · exact ⟨"speckle", "noise", hlists, .single (speckle_requires_noise.mpr rfl)⟩
    · exact ⟨"speckle", "noise", hlists, .refl⟩

theorem speckle_helpers_included :
    (∀ id ∈ ["o"], ∃ f, speckleGraph.fragment (.ofRegistrations speckles)
      (speckleGraph.stems (.ofRegistrations speckles)) id = .ok f) ∧
    ∃ functions, (speckleGraph.emit (.ofRegistrations speckles) .main ⟨["o"], "o", []⟩).map
        Shader.functions = .ok functions ∧
      functions.Nodup ∧ functions.Sublist ["hash", "noise", "spare"] ∧
      ∀ name, name ∈ functions ↔ name = "hash" ∨ name = "noise" := by
  have hfragment : ∀ id ∈ ["o"], ∃ f, speckleGraph.fragment (.ofRegistrations speckles)
      (speckleGraph.stems (.ofRegistrations speckles)) id = .ok f := by
    rw [List.forall_mem_singleton]
    refine ⟨⟨"speckle", [], ["noise"], some ⟨"o", [], "fragColor = vec4(noise());"⟩⟩, ?_⟩
    have hsorted : speckleGraph.sortedEdges = [] := Graph.sortedEdges_of_pairwise .nil
    unfold Graph.fragment bindInputs incomingVariables
    rw [hsorted]
    decide +kernel
  have hincludes := (helpers_included speckles).2 speckleGraph .main ⟨["o"], "o", []⟩ hfragment
  obtain ⟨functions, hfunctions⟩ := hincludes.succeeds.mpr fun name hname => by
    apply Option.isSome_iff_exists.mp
    rcases speckle_wanted_iff.mp hname with rfl | rfl <;> decide +kernel
  refine ⟨hfragment, functions, hfunctions, hincludes.once _ hfunctions,
    hincludes.ordered _ hfunctions, fun name => ?_⟩
  rw [hincludes.exact _ hfunctions, speckle_wanted_iff]

end NodeShader
