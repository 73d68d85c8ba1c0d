import Mathlib.Data.List.Basic
import Mathlib.Logic.Relation
import NodeShader.Proofs.Dictionary
import NodeShader.Proofs.Failure
import NodeShader.Shader.Emission

/-!
# Helper functions

`closeHelpers` includes a pending name and makes pending what it requires, until nothing is
pending. So it includes the names that can be reached from the first ones through requirements,
and it stops only at one of them that is not registered.

* `Registry.mem_closeHelpers`, `Registry.exists_closeHelpers_iff`: what is included, and when.
* `Registry.helpersFor_ok`, `Registry.exists_helpersFor_iff`, `Registry.helpersFor_error`: the
  functions for some needs, when they are found, and why not.
* `Registry.helpersFor_mono`: fewer needs bring fewer functions, in the same order.
* `mem_neededHelpers`, `exists_owner_of_mem_neededHelpers`: fragments need what any of them needs,
  on behalf of its type.
-/

namespace NodeShader

open Relation (ReflTransGen)

namespace Registry

/-- A registered helper requires another one by name. -/
def Requires (r : Registry) (name required : String) : Prop :=
  ∃ h, r.helper? name = some h ∧ required ∈ h.requires

/-- A name is reached from one of these names through requirements. -/
def Reaches (r : Registry) (names : List String) (name : String) : Prop :=
  ∃ start ∈ names, ReflTransGen r.Requires start name

variable {r : Registry} {included result : List String} {pending : List (String × String)}

theorem Reaches.mono {names others : List String} {name : String} (h : r.Reaches names name)
    (hsubset : ∀ start ∈ names, r.Reaches others start) : r.Reaches others name := by
  obtain ⟨start, hstart, hpath⟩ := h
  obtain ⟨first, hfirst, hto⟩ := hsubset start hstart
  exact ⟨first, hfirst, hto.trans hpath⟩

theorem Reaches.of_mem {names : List String} {name : String} (h : name ∈ names) :
    r.Reaches names name := ⟨name, h, .refl⟩

/-- The names that are pending after a helper is included. -/
theorem mem_map_fst_required {requires : List String} {name other : String} :
    other ∈ ((requires.map fun required => (required, name)).reverse ++ pending).map Prod.fst ↔
      other ∈ requires ∨ other ∈ pending.map Prod.fst := by
  rw [List.map_append, List.mem_append, List.map_reverse, List.mem_reverse, List.map_map]
  simp

theorem reaches_of_required {name owner : String} {helper : HelperFunction}
    (hfound : r.helper? name = some helper) :
    ∀ start ∈ ((helper.requires.map fun required => (required, name)).reverse ++ pending).map
      Prod.fst, r.Reaches (((name, owner) :: pending).map Prod.fst) start := by
  intro start hstart
  rcases mem_map_fst_required.mp hstart with hrequired | hpending
  · exact ⟨name, List.mem_cons_self, .single ⟨helper, hfound, hrequired⟩⟩
  · exact .of_mem (List.mem_cons_of_mem _ hpending)

/-- What is included at the end: all that was included or pending, and for each name that was not
included before, all that it requires; it is registered and was reached from a pending one. -/
structure Closed (r : Registry) (included names result : List String) : Prop where
  kept : ∀ name ∈ included, name ∈ result
  taken : ∀ name ∈ names, name ∈ result
  reached : ∀ name ∈ result, name ∉ included → r.Reaches names name
  registered : ∀ name ∈ result, name ∉ included → ∃ helper, r.helper? name = some helper
  closed : ∀ name ∈ result, name ∉ included → ∀ required, r.Requires name required →
    required ∈ result

theorem closeHelpers_ok (h : r.closeHelpers included pending = .ok result) :
    r.Closed included (pending.map Prod.fst) result := by
  fun_induction r.closeHelpers included pending with
  | case1 included =>
    cases h
    exact ⟨fun _ hname => hname, by simp, fun _ hname hnew => absurd hname hnew,
      fun _ hname hnew => absurd hname hnew, fun _ hname hnew => absurd hname hnew⟩
  | case2 included name owner pending known ih =>
    obtain ⟨hkept, htaken, hreached, hregistered, hclosed⟩ := ih h
    refine ⟨hkept, ?_, ?_, hregistered, hclosed⟩
    · intro other hother
      rcases List.mem_cons.mp hother with rfl | hother
      · exact hkept _ (List.contains_iff_mem.mp known)
      · exact htaken other hother
    · intro other hother hnew
      exact (hreached other hother hnew).mono fun start hstart =>
        .of_mem (List.mem_cons_of_mem _ hstart)
  | case3 => cases h
  | case4 included name owner pending known helper found _ required ih =>
    obtain ⟨hkept, htaken, hreached, hregistered, hclosed⟩ := ih h
    have hself : name ∈ result := hkept name List.mem_cons_self
    have hnext (other : String) (hnew : other ∉ included) (hne : other ≠ name) :
        other ∉ name :: included := by
      rw [List.mem_cons, not_or]
      exact ⟨hne, hnew⟩
    refine ⟨fun other hother => hkept other (List.mem_cons_of_mem _ hother), ?_, ?_, ?_, ?_⟩
    · intro other hother
      rcases List.mem_cons.mp hother with rfl | hother
      · exact hself
      · exact htaken other (mem_map_fst_required.mpr (.inr hother))
    · intro other hother hnew
      by_cases hne : other = name
      · subst hne
        exact .of_mem List.mem_cons_self
      · exact (hreached other hother (hnext other hnew hne)).mono (reaches_of_required found)
    · intro other hother hnew
      by_cases hne : other = name
      · subst hne
        exact ⟨helper, found⟩
      · exact hregistered other hother (hnext other hnew hne)
    · intro other hother hnew next hrequires
      by_cases hne : other = name
      · subst hne
        obtain ⟨same, hsame, hnext⟩ := hrequires
        rw [found, Option.some.injEq] at hsame
        subst hsame
        exact htaken next (mem_map_fst_required.mpr (.inl hnext))
      · exact hclosed other hother (hnext other hnew hne) next hrequires

/-- The name that stops the search is not registered. It is reached from the pending ones, and its
owner is the one it is pending with or a reached helper that requires it. -/
theorem closeHelpers_eq_error {err : EmissionError}
    (h : r.closeHelpers included pending = .error err) :
    ∃ owner name, err = .unknownHelper owner name ∧ r.helper? name = none ∧
      r.Reaches (pending.map Prod.fst) name ∧
      ((name, owner) ∈ pending ∨
        r.Reaches (pending.map Prod.fst) owner ∧ r.Requires owner name) := by
  fun_induction r.closeHelpers included pending with
  | case1 => cases h
  | case2 included name owner pending known ih =>
    obtain ⟨o, n, rfl, hnone, hreached, howner⟩ := ih h
    have hmore (other : String) (hother : r.Reaches (pending.map Prod.fst) other) :
        r.Reaches (((name, owner) :: pending).map Prod.fst) other :=
      hother.mono fun start hstart => .of_mem (List.mem_cons_of_mem _ hstart)
    refine ⟨o, n, rfl, hnone, hmore n hreached, ?_⟩
    rcases howner with hpending | ⟨ho, hrequires⟩
    · exact .inl (List.mem_cons_of_mem _ hpending)
    · exact .inr ⟨hmore o ho, hrequires⟩
  | case3 included name owner pending known found =>
    cases h
    exact ⟨owner, name, rfl, found, .of_mem List.mem_cons_self, .inl List.mem_cons_self⟩
  | case4 included name owner pending known helper found _ required ih =>
    obtain ⟨o, n, rfl, hnone, hreached, howner⟩ := ih h
    have hmore := @reaches_of_required r pending name owner helper found
    refine ⟨o, n, rfl, hnone, hreached.mono hmore, ?_⟩
    rcases howner with hpending | ⟨ho, hrequires⟩
    · rcases List.mem_append.mp hpending with hrequired | hpending
      · obtain ⟨other, hother, heq⟩ := List.mem_map.mp (List.mem_reverse.mp hrequired)
        cases heq
        exact .inr ⟨.of_mem List.mem_cons_self, helper, found, hother⟩
      · exact .inl (List.mem_cons_of_mem _ hpending)
    · exact .inr ⟨ho.mono hmore, hrequires⟩

/-- What is included are the names that are reached. -/
theorem mem_closeHelpers (h : r.closeHelpers [] pending = .ok result) {name : String} :
    name ∈ result ↔ r.Reaches (pending.map Prod.fst) name := by
  have hclosed := closeHelpers_ok h
  constructor
  · intro hname
    exact hclosed.reached name hname (by simp)
  · rintro ⟨start, hstart, hpath⟩
    induction hpath with
    | refl => exact hclosed.taken start hstart
    | tail _ hrequires ih => exact hclosed.closed _ ih (by simp) _ hrequires

/-- There is a closure exactly if every name that is reached is registered. -/
theorem exists_closeHelpers_iff :
    (∃ result, r.closeHelpers [] pending = .ok result) ↔
      ∀ name, r.Reaches (pending.map Prod.fst) name → ∃ helper, r.helper? name = some helper := by
  constructor
  · rintro ⟨result, h⟩ name hname
    exact (closeHelpers_ok h).registered name ((mem_closeHelpers h).mpr hname) (by simp)
  · intro hall
    cases h : r.closeHelpers [] pending with
    | ok result => exact ⟨result, rfl⟩
    | error err =>
      obtain ⟨owner, name, -, hnone, hreached, -⟩ := closeHelpers_eq_error h
      obtain ⟨helper, hsome⟩ := hall name hreached
      rw [hnone] at hsome
      cases hsome

/-! ## The functions for some needs -/

section

variable {needed : List (String × String)} {functions : List String}

theorem reaches_reverse {name : String} :
    r.Reaches (needed.reverse.map Prod.fst) name ↔ r.Reaches (needed.map Prod.fst) name := by
  simp only [Reaches, List.map_reverse, List.mem_reverse]

/-- The functions are the registered names that are included, in the order of registration, and
what is included are the names that are reached. -/
theorem helpersFor_ok (h : r.helpersFor needed = .ok functions) :
    ∃ included : List String, (∀ name, name ∈ included ↔ r.Reaches (needed.map Prod.fst) name) ∧
      functions = (r.helpers.map HelperFunction.name).filter included.contains := by
  obtain ⟨included, hincluded, h⟩ := bind_eq_ok.mp h
  cases h
  refine ⟨included, fun name => ?_, ?_⟩
  · rw [mem_closeHelpers hincluded, reaches_reverse]
  · rw [List.filter_map]
    rfl

/-- The functions are found exactly if every name that is reached is registered. -/
theorem exists_helpersFor_iff :
    (∃ functions, r.helpersFor needed = .ok functions) ↔
      ∀ name, r.Reaches (needed.map Prod.fst) name → ∃ helper, r.helper? name = some helper := by
  simp only [← @reaches_reverse r needed]
  rw [← exists_closeHelpers_iff]
  constructor
  · rintro ⟨functions, h⟩
    obtain ⟨included, hincluded, -⟩ := bind_eq_ok.mp h
    exact ⟨included, hincluded⟩
  · rintro ⟨included, hincluded⟩
    exact ⟨_, bind_eq_ok.mpr ⟨included, hincluded, rfl⟩⟩

/-- Why functions are not found: a name is not registered that is needed, or required by a helper
that is reached. -/
theorem helpersFor_error {err : EmissionError} (h : r.helpersFor needed = .error err) :
    ∃ owner name, err = .unknownHelper owner name ∧ r.helper? name = none ∧
      ((name, owner) ∈ needed ∨
        r.Reaches (needed.map Prod.fst) owner ∧ r.Requires owner name) := by
  rcases bind_eq_error.mp h with h | ⟨_, -, h⟩
  · obtain ⟨owner, name, herr, hnone, -, howner⟩ := closeHelpers_eq_error h
    rw [List.mem_reverse, reaches_reverse] at howner
    exact ⟨owner, name, herr, hnone, howner⟩
  · cases h

theorem mem_helpersFor (h : r.helpersFor needed = .ok functions) {name : String} :
    name ∈ functions ↔ r.Reaches (needed.map Prod.fst) name := by
  obtain ⟨included, hincluded, rfl⟩ := helpersFor_ok h
  rw [List.mem_filter, List.contains_iff_mem, hincluded]
  refine and_iff_right_of_imp fun hreached => ?_
  obtain ⟨helper, hhelper⟩ := exists_helpersFor_iff.mp ⟨_, h⟩ name hreached
  have hname : helper.name = name := by simpa using List.find?_some hhelper
  exact List.mem_map.mpr ⟨helper, List.mem_of_find?_eq_some hhelper, hname⟩

/-- Where all that helpers require is registered, the functions for registered needs are found. -/
theorem exists_helpersFor
    (hrequired : ∀ h ∈ r.helpers, ∀ name ∈ h.requires, (r.helper? name).isSome = true)
    (hneeded : ∀ name ∈ needed.map Prod.fst, (r.helper? name).isSome = true) :
    ∃ functions, r.helpersFor needed = .ok functions := by
  refine exists_helpersFor_iff.mpr ?_
  rintro name ⟨start, hstart, hpath⟩
  apply Option.isSome_iff_exists.mp
  cases hpath with
  | refl => exact hneeded _ hstart
  | tail _ hlast =>
    obtain ⟨h, hfound, hname⟩ := hlast
    exact hrequired h (List.mem_of_find?_eq_some hfound) name hname

/-- Fewer needs bring fewer functions, in the same order. -/
theorem helpersFor_mono {fewer : List (String × String)}
    (hfewer : ∀ name ∈ fewer.map Prod.fst, name ∈ needed.map Prod.fst)
    (h : r.helpersFor needed = .ok functions) :
    ∃ less, r.helpersFor fewer = .ok less ∧ less.Sublist functions := by
  have hreaches (name : String) (hname : r.Reaches (fewer.map Prod.fst) name) :
      r.Reaches (needed.map Prod.fst) name :=
    hname.mono fun start hstart => .of_mem (hfewer start hstart)
  obtain ⟨less, hless⟩ : ∃ less, r.helpersFor fewer = .ok less :=
    exists_helpersFor_iff.mpr fun name hname =>
      exists_helpersFor_iff.mp ⟨functions, h⟩ name (hreaches name hname)
  refine ⟨less, hless, ?_⟩
  obtain ⟨included, hincluded, rfl⟩ := helpersFor_ok h
  obtain ⟨part, hpart, rfl⟩ := helpersFor_ok hless
  refine List.monotone_filter_right _ fun name hname => ?_
  rw [List.contains_iff_mem, hpart] at hname
  rw [List.contains_iff_mem, hincluded]
  exact hreaches name hname

end

end Registry

/-! ## What fragments need -/

/-- The owner of a need is the type of a fragment that has it. -/
theorem exists_owner_of_mem_neededHelpers {fragments : List Fragment} {name owner : String}
    (h : (name, owner) ∈ neededHelpers fragments) :
    ∃ f ∈ fragments, f.typeId = owner ∧ name ∈ f.helpers := by
  have hneed := Dictionary.mem_entries_ofList h
  rw [List.mem_reverse] at hneed
  obtain ⟨f, hf, hneed⟩ := List.mem_flatMap.mp hneed
  obtain ⟨helper, hhelper, heq⟩ := List.mem_map.mp hneed
  cases heq
  exact ⟨f, hf, rfl, hhelper⟩

theorem mem_neededHelpers {fragments : List Fragment} {name : String} :
    name ∈ (neededHelpers fragments).map Prod.fst ↔ ∃ f ∈ fragments, name ∈ f.helpers := by
  rw [neededHelpers, Dictionary.mem_keys_ofList, List.map_reverse, List.mem_reverse]
  simp

end NodeShader
