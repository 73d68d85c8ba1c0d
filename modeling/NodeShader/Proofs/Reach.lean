import Mathlib.Logic.Relation
import NodeShader.Proofs.Adjacency
import NodeShader.Schedule.Reach

/-!
# Reachability

`reachable` finds what a chain of steps inside the pool leads to (`mem_reachable`), and
`groups` splits an ascending list into the classes of an equivalence (`mem_groups`), ordered by
their first items (`groups_heads`). Applied to a graph, `reaching` lists the nodes with a path to a
node (`Graph.mem_reaching`).
-/

namespace NodeShader

open Relation (ReflTransGen TransGen)

section Reachable

variable {next : String → List String} {pool frontier : List String}

theorem mem_separate_fst {p : String → Bool} {ids : List String} {x : String} :
    x ∈ (separate p ids).1 ↔ x ∈ ids ∧ p x = true := by
  simp [separate]

theorem mem_separate_snd {p : String → Bool} {ids : List String} {x : String} :
    x ∈ (separate p ids).2 ↔ x ∈ ids ∧ p x = false := by
  simp [separate]

theorem subset_reachable : ∀ u ∈ frontier, u ∈ reachable next pool frontier := by
  fun_induction reachable next pool frontier with
  | case1 => simp
  | case2 pool id frontier parts ih =>
    intro u hu
    rcases List.mem_cons.mp hu with rfl | hu
    · exact List.mem_cons_self
    · exact List.mem_cons_of_mem _ (ih u (List.mem_append_right _ hu))

/-- What is found is closed under steps to nodes of the pool. -/
theorem reachable_closed {a b : String} (ha : a ∈ reachable next pool frontier) (hb : b ∈ next a)
    (hp : b ∈ pool) : b ∈ reachable next pool frontier := by
  fun_induction reachable next pool frontier with
  | case1 => cases ha
  | case2 pool id frontier parts ih =>
    refine List.mem_cons_of_mem _ ?_
    by_cases hin : b ∈ next id
    · have hfst : b ∈ parts.1 := mem_separate_fst.mpr ⟨hp, List.contains_iff_mem.mpr hin⟩
      exact subset_reachable b (List.mem_append_left _ hfst)
    · have hsnd : b ∈ parts.2 := mem_separate_snd.mpr ⟨hp, by simpa using hin⟩
      rcases List.mem_cons.mp ha with rfl | ha
      · exact absurd hb hin
      · exact ih ha hsnd

/-- A node is found when a chain of steps inside the pool leads to it from the frontier. -/
theorem mem_reachable {v : String} :
    v ∈ reachable next pool frontier ↔
      ∃ u ∈ frontier, ReflTransGen (fun a b => b ∈ next a ∧ b ∈ pool) u v := by
  constructor
  · intro hv
    fun_induction reachable next pool frontier with
    | case1 => cases hv
    | case2 pool id frontier parts ih =>
      rcases List.mem_cons.mp hv with rfl | hv
      · exact ⟨v, List.mem_cons_self, .refl⟩
      obtain ⟨u, hu, huv⟩ := ih hv
      -- a chain inside what is left of the pool is one inside the pool
      have huv : ReflTransGen (fun a b => b ∈ next a ∧ b ∈ pool) u v :=
        ReflTransGen.mono (fun _ _ h => ⟨h.1, (mem_separate_snd.mp h.2).1⟩) u v huv
      rcases List.mem_append.mp hu with hu | hu
      · obtain ⟨hp, hn⟩ := mem_separate_fst.mp hu
        exact ⟨id, List.mem_cons_self, .head ⟨List.contains_iff_mem.mp hn, hp⟩ huv⟩
      · exact ⟨u, List.mem_cons_of_mem _ hu, huv⟩
  · rintro ⟨u, hu, huv⟩
    induction huv with
    | refl => exact subset_reachable u hu
    | tail _ hstep ih => exact reachable_closed ih hstep.1 hstep.2

/-- A chain that leaves a node and can return to it stays among the nodes with that
property, and need not pass the first node again. -/
theorem reflTransGen_within {step : String → String → Prop} {id x : String} {rest : List String}
    (hwhole : ∀ y, ReflTransGen step id y → ReflTransGen step y id → y = id ∨ y ∈ rest)
    (h : ReflTransGen step id x) (hback : ReflTransGen step x id) :
    ReflTransGen (fun a b => step a b ∧ b ∈ rest) id x := by
  induction h with
  | refl => exact .refl
  | tail hy hyx ih =>
    rcases hwhole _ (hy.tail hyx) hback with rfl | hin
    · exact .refl
    · exact (ih (.head hyx hback)).tail ⟨hyx, hin⟩

/-- A chain inside some of the nodes, from one of the nodes, runs inside the nodes. -/
theorem reflTransGen_among {step : String → String → Prop} {id x : String}
    {rest members : List String} (hid : id ∈ members) (hrest : ∀ y ∈ rest, y ∈ members)
    (h : ReflTransGen (fun a b => step a b ∧ b ∈ rest) id x) :
    ReflTransGen (fun a b => step a b ∧ a ∈ members ∧ b ∈ members) id x := by
  induction h with
  | refl => exact .refl
  | tail _ hstep ih =>
    refine ih.tail ⟨hstep.1, ?_, hrest _ hstep.2⟩
    rcases ih.cases_tail with rfl | ⟨_, -, h⟩
    · exact hid
    · exact h.2.2

end Reachable

/-! ## Groups -/

section Groups

variable {members : String → List String → List String} {ids : List String}

theorem groups_cover : ∀ x ∈ ids, ∃ group ∈ groups members ids, x ∈ group := by
  fun_induction groups members ids with
  | case1 => simp
  | case2 id rest parts ih =>
    intro x hx
    rcases List.mem_cons.mp hx with rfl | hx
    · exact ⟨x :: parts.1, List.mem_cons_self, List.mem_cons_self⟩
    cases hin : (members id rest).contains x with
    | true =>
      exact ⟨id :: parts.1, List.mem_cons_self,
        List.mem_cons_of_mem _ (mem_separate_fst.mpr ⟨hx, hin⟩)⟩
    | false =>
      obtain ⟨group, hg, hxg⟩ := ih x (mem_separate_snd.mpr ⟨hx, hin⟩)
      exact ⟨group, List.mem_cons_of_mem _ hg, hxg⟩

theorem groups_sublist : ∀ group ∈ groups members ids, group ≠ [] ∧ group.Sublist ids := by
  fun_induction groups members ids with
  | case1 => simp
  | case2 id rest parts ih =>
    intro group hg
    rcases List.mem_cons.mp hg with rfl | hg
    · exact ⟨List.cons_ne_nil _ _, List.filter_sublist.cons_cons id⟩
    · obtain ⟨hne, hsub⟩ := ih group hg
      exact ⟨hne, (hsub.trans List.filter_sublist).trans (List.sublist_cons_self id rest)⟩

/-- The groups are ordered by their first nodes. -/
theorem groups_heads (h : ids.Pairwise (· < ·)) :
    (groups members ids).Pairwise fun a b =>
      ∃ x y, a.head? = some x ∧ b.head? = some y ∧ x < y := by
  fun_induction groups members ids with
  | case1 => exact List.Pairwise.nil
  | case2 id rest parts ih =>
    obtain ⟨hfirst, hrest⟩ := List.pairwise_cons.mp h
    refine List.pairwise_cons.mpr ⟨fun group hg => ?_, ih (hrest.filter _)⟩
    obtain ⟨hne, hsub⟩ := groups_sublist group hg
    obtain ⟨x, others, rfl⟩ := List.exists_cons_of_ne_nil hne
    have hx : x ∈ parts.2 := hsub.subset List.mem_cons_self
    exact ⟨id, x, rfl, rfl, hfirst x (mem_separate_snd.mp hx).1⟩

/-- A part of a list that holds the whole class of each of its items. -/
structure Whole (same : String → String → Prop) (all part : List String) : Prop where
  subset : ∀ x ∈ part, x ∈ all
  closed : ∀ x ∈ part, ∀ y ∈ all, same x y → y ∈ part

/-- What steps between the items lead to from the first item of a part, and what is of its class,
is in the part. -/
theorem Whole.mem_of_reflTransGen {same step : String → String → Prop} {all : List String}
    {id y : String} {rest : List String} (hw : Whole same all (id :: rest))
    (hstep : ∀ a b, step a b → b ∈ all) (hpath : ReflTransGen step id y) (hsame : same id y) :
    y = id ∨ y ∈ rest := by
  have hy : y ∈ all := by
    rcases hpath.cases_tail with rfl | ⟨_, -, hlast⟩
    · exact hw.subset _ List.mem_cons_self
    · exact hstep _ _ hlast
  exact List.mem_cons.mp (hw.closed id List.mem_cons_self y hy hsame)

/-- If `members` finds the class of a node in what is left, the groups are classes. -/
theorem groups_class {same : String → String → Prop} (hs : Equivalence same) {all : List String}
    (hm : ∀ id rest, Whole same all (id :: rest) →
      ∀ x ∈ rest, x ∈ members id rest ↔ same id x)
    (hw : Whole same all ids) :
    ∀ group ∈ groups members ids, ∃ id ∈ group, ∀ x, x ∈ group ↔ x ∈ all ∧ same id x := by
  fun_induction groups members ids with
  | case1 => simp
  | case2 id rest parts ih =>
    have hrest : ∀ x ∈ rest, (members id rest).contains x = true ↔ same id x := fun x hx =>
      List.contains_iff_mem.trans (hm id rest hw x hx)
    intro group hg
    rcases List.mem_cons.mp hg with rfl | hg
    · refine ⟨id, List.mem_cons_self, fun x => ?_⟩
      rw [List.mem_cons, mem_separate_fst]
      constructor
      · rintro (rfl | ⟨hx, hin⟩)
        · exact ⟨hw.subset x List.mem_cons_self, hs.refl x⟩
        · exact ⟨hw.subset x (List.mem_cons_of_mem _ hx), (hrest x hx).mp hin⟩
      · rintro ⟨hx, hsame⟩
        rcases List.mem_cons.mp (hw.closed id List.mem_cons_self x hx hsame) with rfl | hx
        · exact .inl rfl
        · exact .inr ⟨hx, (hrest x hx).mpr hsame⟩
    · -- the class of the first node is gone, so the rest is still whole
      have hleft : Whole same all parts.2 := by
        refine ⟨fun x hx => hw.subset x (List.mem_cons_of_mem _ (mem_separate_snd.mp hx).1), ?_⟩
        intro x hx y hy hxy
        obtain ⟨hx, hout⟩ := mem_separate_snd.mp hx
        have hne : ¬ same id x := fun h => by
          rw [(hrest x hx).mpr h] at hout
          cases hout
        rcases List.mem_cons.mp (hw.closed x (List.mem_cons_of_mem _ hx) y hy hxy) with rfl | hyr
        · exact absurd (hs.symm hxy) hne
        · refine mem_separate_snd.mpr ⟨hyr, Bool.eq_false_iff.mpr fun hin => hne ?_⟩
          exact hs.trans ((hrest y hyr).mp hin) (hs.symm hxy)
      exact ih hleft group hg

/-- Two ascending lists that each hold a class are equal when they have an item in common. -/
theorem eq_of_common {same : String → String → Prop} (hs : Equivalence same)
    {a b : List String} (ha : a.Pairwise (· < ·)) (hb : b.Pairwise (· < ·)) {i j x : String}
    (hi : ∀ y, y ∈ a ↔ y ∈ ids ∧ same i y) (hj : ∀ y, y ∈ b ↔ y ∈ ids ∧ same j y)
    (hxa : x ∈ a) (hxb : x ∈ b) : a = b := by
  have hij : same i j := hs.trans ((hi x).mp hxa).2 (hs.symm ((hj x).mp hxb).2)
  refine eq_of_ascending ha hb fun y => ?_
  rw [hi y, hj y]
  exact and_congr_right fun _ => ⟨hs.trans (hs.symm hij), hs.trans hij⟩

/-- The groups of an ascending list are the classes of its items, each ascending. -/
theorem mem_groups {same : String → String → Prop} (hs : Equivalence same)
    (hm : ∀ id rest, Whole same ids (id :: rest) → ∀ x ∈ rest, x ∈ members id rest ↔ same id x)
    (h : ids.Pairwise (· < ·)) {group : List String} :
    group ∈ groups members ids ↔
      group.Pairwise (· < ·) ∧ ∃ id ∈ group, ∀ x, x ∈ group ↔ x ∈ ids ∧ same id x := by
  have hclass := groups_class hs hm ⟨fun _ h => h, fun _ _ _ h _ => h⟩
  constructor
  · exact fun hg => ⟨h.sublist (groups_sublist group hg).2, hclass group hg⟩
  · rintro ⟨hasc, id, hid, hgroup⟩
    obtain ⟨other, hother, hin⟩ := @groups_cover members ids id ((hgroup id).mp hid).1
    obtain ⟨id', -, hmem⟩ := hclass other hother
    have hasc' : other.Pairwise (· < ·) := h.sublist (groups_sublist other hother).2
    rw [eq_of_common hs hasc hasc' hgroup hmem hid hin]
    exact hother

end Groups

theorem eq_of_mem_of_length_le_one {α : Type} {l : List α} {a b : α} (h : l.length ≤ 1) (ha : a ∈ l)
    (hb : b ∈ l) : a = b := by
  match l with
  | [] => cases ha
  | [c] => rw [List.mem_singleton.mp ha, List.mem_singleton.mp hb]
  | _ :: _ :: _ => simp at h

/-! ## Graphs -/

namespace Graph

variable {g : Graph}

theorem mem_ids_of_path {id target : String} (ht : target ∈ g.ids)
    (h : ReflTransGen g.Feeds id target) : id ∈ g.ids := by
  rcases h.cases_head with rfl | ⟨_, hstep, -⟩
  · exact ht
  · exact hstep.1

/-- The nodes found by `reaching` are those with a path to the target. -/
theorem mem_reaching {target id : String} (ht : target ∈ g.ids) :
    id ∈ g.adjacency.reaching target ↔ ReflTransGen g.Feeds id target := by
  simp only [Adjacency.reaching, nodes_adjacency, List.mem_filter, List.contains_iff_mem,
    mem_reachable, List.mem_singleton, exists_eq_left, mem_predecessorsOf, bne_iff_ne]
  constructor
  · rintro ⟨-, h⟩
    have := ReflTransGen.mono (p := fun a b => g.Feeds b a) (fun _ _ h => h.1) _ _ h
    exact Relation.reflTransGen_swap.mp this
  · intro h
    refine ⟨mem_ids_of_path ht h, ?_⟩
    -- backwards from the target, starting over where the path meets it again
    have hcut : ∀ x, ReflTransGen (Function.swap g.Feeds) target x →
        ReflTransGen (fun a b => g.Feeds b a ∧ b ∈ g.ids ∧ b ≠ target) target x := by
      intro x hx
      induction hx with
      | refl => exact .refl
      | @tail y x _ hstep ih =>
        by_cases hx : x = target
        · exact hx ▸ .refl
        · exact ih.tail ⟨hstep, hstep.1, hx⟩
    exact hcut id (Relation.reflTransGen_swap.mpr h)

/-- Whether there is a path to a node can be decided. -/
instance (g : Graph) (id target : String) : Decidable (ReflTransGen g.Feeds id target) :=
  decidable_of_iff (id = target ∨ target ∈ g.ids ∧ id ∈ g.adjacency.reaching target) <| by
    constructor
    · rintro (rfl | ⟨ht, h⟩)
      · exact .refl
      · exact (mem_reaching ht).mp h
    · intro h
      rcases h.cases_tail with heq | ⟨_, -, hstep⟩
      · exact .inl heq.symm
      · exact .inr ⟨hstep.2.1, (mem_reaching hstep.2.1).mpr h⟩

end Graph

end NodeShader
