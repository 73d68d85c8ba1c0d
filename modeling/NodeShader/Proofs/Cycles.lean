import NodeShader.Proofs.ComponentSearch
import NodeShader.Proofs.Reach

/-!
# The cycles among some nodes

The search for components works on positions in a list of nodes. Where the list is ascending, a
vertex leads to another one exactly if there is a path between their nodes inside the list
(`Graph.leads_iff`), so the components that are found are classes of nodes with paths in both
directions (`Graph.sortedComponent_spec`).

* `Graph.mem_cyclesAmong`: the cycles among some nodes are their components that hold a cycle;
* `Graph.cyclesAmong_pairwise`: they come in ascending order, each once;
* `Graph.exists_mem_cyclesAmong`: every node on a cycle is in one of them.
-/

namespace NodeShader

open Relation (ReflTransGen TransGen)
open ComponentSearch (Leads)

/-! ## Sorting -/

section Sorting

variable {α : Type} [LT α] [DecidableLT α] {l sorted : List α}

theorem sortAscending_perm (l : List α) : (sortAscending l).Perm l := l.mergeSort_perm _

variable [LE α] [Std.IsLinearOrder α] [Std.LawfulOrderLT α]

theorem sortAscending_pairwise (h : l.Nodup) : (sortAscending l).Pairwise (· < ·) := by
  have hle (a b : α) : (!decide (b < a)) = true ↔ a ≤ b := by simp [Std.not_lt]
  have hsorted : (sortAscending l).Pairwise fun a b => (!decide (b < a)) = true := by
    refine List.pairwise_mergeSort (fun a b c => ?_) (fun a b => ?_) l
    · rw [hle, hle, hle]
      exact Std.le_trans
    · rw [Bool.or_eq_true, hle, hle]
      exact Std.le_total
  have hnodup : (sortAscending l).Nodup := (sortAscending_perm l).nodup_iff.mpr h
  refine (hsorted.and hnodup).imp fun hab => ?_
  exact Std.lt_of_le_of_ne ((hle _ _).mp hab.1) hab.2

theorem sortAscending_eq (h : sorted.Pairwise (· < ·)) (hperm : l.Perm sorted) :
    sortAscending l = sorted := by
  have hnodup : l.Nodup := hperm.nodup_iff.mpr (h.imp Std.ne_of_lt)
  have hsame : (sortAscending l).Perm sorted := (sortAscending_perm l).trans hperm
  refine List.Perm.eq_of_pairwise ?_ (sortAscending_pairwise hnodup) h hsame
  exact fun a b _ _ hab hba => absurd (Std.lt_trans hab hba) Std.lt_irrefl

end Sorting

namespace Graph

variable {g : Graph} {members : List String}

/-- A step between two of the given nodes. -/
def FeedsWithin (g : Graph) (members : List String) (s t : String) : Prop :=
  s ∈ members ∧ t ∈ members ∧ g.Feeds s t

/-- Two nodes with paths in both directions inside the given nodes. -/
def Mutual (g : Graph) (members : List String) (s t : String) : Prop :=
  ReflTransGen (g.FeedsWithin members) s t ∧ ReflTransGen (g.FeedsWithin members) t s

theorem Mutual.trans {a b c : String} (hab : g.Mutual members a b) (hbc : g.Mutual members b c) :
    g.Mutual members a c := ⟨hab.1.trans hbc.1, hbc.2.trans hab.2⟩

theorem Mutual.symm {a b : String} (h : g.Mutual members a b) : g.Mutual members b a := ⟨h.2, h.1⟩

/-! ## Positions -/

theorem position_inj (hm : members.Pairwise (· < ·)) {v w : Fin members.length}
    (h : members.get v = members.get w) : v = w :=
  Fin.ext ((nodup_of_pairwise_lt hm).getElem_inj_iff.mp h)

theorem mem_edgesAmong (hm : members.Pairwise (· < ·)) {v w : Fin members.length} :
    w ∈ g.adjacency.edgesAmong members v ↔ g.Feeds (members.get v) (members.get w) := by
  rw [Adjacency.edgesAmong, List.mem_filterMap]
  constructor
  · rintro ⟨id, hid, hposition⟩
    have hget : members.get w = id := (List.finIdxOf?_eq_some_iff.mp hposition).1
    rw [hget]
    exact mem_successorsOf.mp hid
  · intro h
    refine ⟨members.get w, mem_successorsOf.mpr h, List.finIdxOf?_eq_some_iff.mpr ⟨rfl, ?_⟩⟩
    exact fun u hu heq => absurd (position_inj hm heq) (Fin.ne_of_lt hu)

/-- A vertex leads to another one where there is a path between their nodes. -/
theorem leads_iff (hm : members.Pairwise (· < ·)) {v w : Fin members.length} :
    Leads (g.adjacency.edgesAmong members) v w ↔
      ReflTransGen (g.FeedsWithin members) (members.get v) (members.get w) := by
  constructor
  · intro h
    refine ReflTransGen.lift members.get (fun a b hab => ?_) v w h
    exact ⟨List.getElem_mem a.isLt, List.getElem_mem b.isLt, (mem_edgesAmong hm).mp hab⟩
  · intro h
    -- every node on the path has a position
    have hpath (x : String) (hx : ReflTransGen (g.FeedsWithin members) (members.get v) x) :
        ∃ u : Fin members.length, members.get u = x ∧
          Leads (g.adjacency.edgesAmong members) v u := by
      induction hx with
      | refl => exact ⟨v, rfl, .refl⟩
      | tail _ hstep ih =>
        obtain ⟨a, rfl, ha⟩ := ih
        obtain ⟨i, hi, rfl⟩ := List.getElem_of_mem hstep.2.1
        exact ⟨⟨i, hi⟩, rfl, ha.tail ((mem_edgesAmong hm).mpr hstep.2.2)⟩
    obtain ⟨u, hu, hleads⟩ := hpath _ h
    exact position_inj hm hu ▸ hleads

/-- The nodes of a component, ascending. -/
def sortedComponent (members : List String) (component : List (Fin members.length)) : List String :=
  sortAscending (component.map members.get)

theorem mem_sortedComponent {component : List (Fin members.length)} {x : String} :
    x ∈ sortedComponent members component ↔ ∃ v ∈ component, members.get v = x := by
  rw [sortedComponent, (sortAscending_perm _).mem_iff, List.mem_map]

theorem position_mem_iff (hm : members.Pairwise (· < ·)) {component : List (Fin members.length)}
    {v : Fin members.length} :
    members.get v ∈ sortedComponent members component ↔ v ∈ component := by
  rw [mem_sortedComponent]
  constructor
  · rintro ⟨w, hw, heq⟩
    exact position_inj hm heq ▸ hw
  · exact fun hv => ⟨v, hv, rfl⟩

theorem sortedComponent_spec (hm : members.Pairwise (· < ·)) {component : List (Fin members.length)}
    (h : ComponentSearch.IsComponent (g.adjacency.edgesAmong members) component) :
    (sortedComponent members component).Pairwise (· < ·) ∧
      ∃ id ∈ sortedComponent members component, ∀ x,
        x ∈ sortedComponent members component ↔ x ∈ members ∧ g.Mutual members id x := by
  obtain ⟨hnodup, v, hv, hclass⟩ := h
  have hinj : (component.map members.get).Nodup :=
    hnodup.map_on fun a _ b _ heq => position_inj hm heq
  refine ⟨sortAscending_pairwise hinj, members.get v, (position_mem_iff hm).mpr hv, fun x => ⟨?_, ?_⟩⟩
  · intro hx
    obtain ⟨w, hw, rfl⟩ := mem_sortedComponent.mp hx
    obtain ⟨hto, hback⟩ := (hclass w).mp hw
    exact ⟨List.getElem_mem w.isLt, (leads_iff hm).mp hto, (leads_iff hm).mp hback⟩
  · rintro ⟨hx, hto, hback⟩
    obtain ⟨i, hi, rfl⟩ := List.getElem_of_mem hx
    refine (position_mem_iff (v := ⟨i, hi⟩) hm).mpr ((hclass ⟨i, hi⟩).mpr ?_)
    exact ⟨(leads_iff hm).mpr hto, (leads_iff hm).mpr hback⟩

/-! ## Cycles -/

theorem mem_cyclesAmong_iff {cycle : List String} :
    cycle ∈ g.adjacency.cyclesAmong members ↔
      ∃ component ∈ (ComponentSearch.run (g.adjacency.edgesAmong members)).components,
        g.adjacency.isCyclic members component = true ∧
          sortedComponent members component = cycle := by
  rw [Adjacency.cyclesAmong, (sortAscending_perm _).mem_iff, List.mem_map]
  simp only [List.mem_filter, and_assoc]
  rfl

theorem isCyclic_iff {component : List (Fin members.length)} (h : component ≠ []) :
    g.adjacency.isCyclic members component = true ↔
      2 ≤ (sortedComponent members component).length ∨
        ∃ id ∈ sortedComponent members component, g.Feeds id id := by
  have hlength : (sortedComponent members component).length = component.length := by
    rw [sortedComponent, (sortAscending_perm _).length_eq, List.length_map]
  rw [hlength]
  match component with
  | [] => exact absurd rfl h
  | [only] => simp [Adjacency.isCyclic, mem_sortedComponent, mem_successorsOf]
  | _ :: _ :: _ => simp [Adjacency.isCyclic]

/-- The cycles among some nodes are the components with several nodes or a node that feeds
itself. -/
theorem mem_cyclesAmong (hm : members.Pairwise (· < ·)) {cycle : List String} :
    cycle ∈ g.adjacency.cyclesAmong members ↔
      cycle.Pairwise (· < ·) ∧
        (∃ id ∈ cycle, ∀ x, x ∈ cycle ↔ x ∈ members ∧ g.Mutual members id x) ∧
        (2 ≤ cycle.length ∨ ∃ id ∈ cycle, g.Feeds id id) := by
  obtain ⟨hcomponents, hcover, -⟩ :=
    ComponentSearch.components_run (g.adjacency.edgesAmong members)
  have hne {component : List (Fin members.length)}
      (h : ComponentSearch.IsComponent (g.adjacency.edgesAmong members) component) :
      component ≠ [] := by
    obtain ⟨-, v, hv, -⟩ := h
    exact List.ne_nil_of_mem hv
  rw [mem_cyclesAmong_iff]
  constructor
  · rintro ⟨component, hmem, hcyclic, rfl⟩
    have hcomponent := hcomponents component hmem
    obtain ⟨hasc, hclass⟩ := sortedComponent_spec hm hcomponent
    exact ⟨hasc, hclass, (isCyclic_iff (hne hcomponent)).mp hcyclic⟩
  · rintro ⟨hasc, ⟨id, hid, hclass⟩, hcyclic⟩
    obtain ⟨i, hi, rfl⟩ := List.getElem_of_mem ((hclass id).mp hid).1
    obtain ⟨component, hmem, hv⟩ := hcover ⟨i, hi⟩
    have hcomponent := hcomponents component hmem
    obtain ⟨hasc', root, hroot, hclass'⟩ := sortedComponent_spec hm hcomponent
    -- the two classes have a node in common
    have hsame : g.Mutual members root members[i] :=
      ((hclass' _).mp ((position_mem_iff (v := ⟨i, hi⟩) hm).mpr hv)).2
    have heq : sortedComponent members component = cycle := by
      refine eq_of_ascending hasc' hasc fun x => ?_
      rw [hclass, hclass']
      exact and_congr_right fun _ => ⟨hsame.symm.trans, hsame.trans⟩
    exact ⟨component, hmem, (isCyclic_iff (hne hcomponent)).mpr (heq ▸ hcyclic), heq⟩

theorem cyclesAmong_pairwise (hm : members.Pairwise (· < ·)) :
    (g.adjacency.cyclesAmong members).Pairwise (· < ·) := by
  obtain ⟨hcomponents, -, hdisjoint⟩ :=
    ComponentSearch.components_run (g.adjacency.edgesAmong members)
  refine sortAscending_pairwise ?_
  -- components without a common vertex are different lists
  refine List.pairwise_map.mpr ((hdisjoint.filter _).imp_of_mem fun {a b} ha _ hab heq => ?_)
  obtain ⟨-, v, hv, -⟩ := hcomponents a (List.mem_of_mem_filter ha)
  have heq : sortedComponent members a = sortedComponent members b := heq
  exact hab hv ((position_mem_iff hm).mp (heq ▸ (position_mem_iff hm).mpr hv))

/-- A node on a cycle among some nodes is in one that is reported. -/
theorem exists_mem_cyclesAmong (hm : members.Pairwise (· < ·)) {t : String}
    (hc : TransGen (g.FeedsWithin members) t t) :
    ∃ cycle ∈ g.adjacency.cyclesAmong members, t ∈ cycle := by
  obtain ⟨next, hstep, hback⟩ := TransGen.head'_iff.mp hc
  obtain ⟨i, hi, rfl⟩ := List.getElem_of_mem hstep.1
  obtain ⟨hcomponents, hcover, -⟩ :=
    ComponentSearch.components_run (g.adjacency.edgesAmong members)
  obtain ⟨component, hmem, hv⟩ := hcover ⟨i, hi⟩
  obtain ⟨hasc, id, hid, hclass⟩ := sortedComponent_spec hm (hcomponents component hmem)
  have ht : members[i] ∈ sortedComponent members component :=
    (position_mem_iff (v := ⟨i, hi⟩) hm).mpr hv
  refine ⟨_, (mem_cyclesAmong hm).mpr ⟨hasc, ⟨id, hid, hclass⟩, ?_⟩, ht⟩
  -- the next node on the cycle is in the component too: another node, or the same again
  have hnext : next ∈ sortedComponent members component :=
    (hclass next).mpr ⟨hstep.2.1, ((hclass _).mp ht).2.trans ⟨.single hstep, hback⟩⟩
  by_cases hne : next = members[i]
  · exact .inr ⟨members[i], ht, hne ▸ hstep.2.2⟩
  · refine .inl (Nat.lt_of_not_le fun hle => hne ?_)
    exact eq_of_mem_of_length_le_one hle hnext ht

end Graph

end NodeShader
