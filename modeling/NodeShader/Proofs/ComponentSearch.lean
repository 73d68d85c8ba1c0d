import Mathlib.Data.List.Nodup
import Mathlib.Logic.Relation
import NodeShader.Schedule.Cycles

/-!
# The search for components

Tarjan's algorithm finds the strongly connected components of a graph. `Invariant` is what holds of
a search while the vertices of `path` are being visited: on the stack every vertex leads to those
above it and to one of the path, and what was taken off the stack are components. `Following` adds
what holds while the edges of one vertex are followed: its lowlink is the number of a vertex that it
leads to, and no edge from above it goes below its lowlink. Following one edge keeps this
(`Following.follow`); when all edges are followed, the vertex is left and its path is the one before
(`Following.leave`). So a visit keeps the invariant (`Invariant.visit`).

* `components_run`: what is found are components, every vertex is in one of them, and no two have a
  vertex in common.
-/

namespace NodeShader.ComponentSearch

open Relation (ReflTransGen)

variable {n : Nat} {edges : Fin n → List (Fin n)} {s t s₀ : ComponentSearch n} {v w : Fin n}
  {path : List (Fin n)}

/-- There is a path from the first vertex to the second. -/
def Leads (edges : Fin n → List (Fin n)) : Fin n → Fin n → Prop :=
  ReflTransGen fun a b => b ∈ edges a

/-- The vertex has a number. -/
def Seen (s : ComponentSearch n) (v : Fin n) : Prop := s.indices.get v ≠ none

/-- The number of a vertex that has one. -/
def number (s : ComponentSearch n) (v : Fin n) : Nat := (s.indices.get v).getD 0

/-- The vertex was taken off the stack. -/
def Finished (s : ComponentSearch n) (v : Fin n) : Prop := s.Seen v ∧ v ∉ s.stack

/-- A list of all vertices with paths from one of them and to it. -/
def IsComponent (edges : Fin n → List (Fin n)) (component : List (Fin n)) : Prop :=
  component.Nodup ∧ ∃ v ∈ component, ∀ w, w ∈ component ↔ Leads edges v w ∧ Leads edges w v

/-- What holds while the vertices of the path, the newest first, are being visited. -/
structure Invariant (edges : Fin n → List (Fin n)) (s : ComponentSearch n)
    (path : List (Fin n)) : Prop where
  marked : ∀ v, s.onStack.get v = true ↔ v ∈ s.stack
  seen : ∀ v ∈ s.stack, s.Seen v
  number_lt : ∀ v, s.Seen v → s.number v < s.nextIndex
  ordered : s.stack.Pairwise fun a b => s.number b < s.number a ∧ Leads edges b a
  path_ordered : path.Pairwise fun a b => s.number b < s.number a
  path_subset : ∀ v ∈ path, v ∈ s.stack
  returns : ∀ v ∈ s.stack, ∃ u ∈ path, s.number u ≤ s.number v ∧ Leads edges v u
  followed : ∀ v, s.Seen v → v ∉ path → ∀ w ∈ edges v, s.Seen w
  closed : ∀ v, s.Finished v → ∀ w ∈ edges v, s.Finished w
  covered : ∀ v, s.Finished v ↔ ∃ component ∈ s.components, v ∈ component
  components : ∀ component ∈ s.components, IsComponent edges component
  disjoint : s.components.Pairwise List.Disjoint

/-! ## Single operations -/

theorem get_set {α : Type} (xs : Vector α n) (v w : Fin n) (x : α) :
    (xs.set v x v.isLt).get w = if v = w then x else xs.get w := by
  simp only [Fin.ext_iff]
  exact Vector.getElem_set v.isLt w.isLt

@[simp] theorem get_replicate {α : Type} (v : Fin n) (x : α) : (Vector.replicate n x).get v = x :=
  Vector.getElem_replicate v.isLt

theorem stack_enter : (s.enter v).stack = v :: s.stack := rfl

theorem indices_enter :
    (s.enter v).indices.get w = if v = w then some s.nextIndex else s.indices.get w :=
  get_set ..

theorem lowlinks_enter :
    (s.enter v).lowlinks.get w = if v = w then s.nextIndex else s.lowlinks.get w :=
  get_set ..

theorem ne_of_seen (hv : ¬ s.Seen v) (hw : s.Seen w) : v ≠ w := fun heq => hv (heq ▸ hw)

theorem seen_enter : (s.enter v).Seen w ↔ v = w ∨ s.Seen w := by
  rw [Seen, indices_enter]
  split <;> simp_all [Seen]

theorem number_enter : (s.enter v).number w = if v = w then s.nextIndex else s.number w := by
  rw [number, indices_enter]
  split <;> rfl

theorem number_enter_of_ne (h : v ≠ w) : (s.enter v).number w = s.number w := by
  rw [number_enter, if_neg h]

theorem lowlinks_lower (index : Nat) :
    (s.lower v index).lowlinks.get w =
      if v = w then min (s.lowlinks.get v) index else s.lowlinks.get w :=
  get_set ..

theorem popTo_append {above below : List (Fin n)} (h : v ∉ above) :
    popTo v (above ++ v :: below) = (above ++ [v], below) := by
  induction above with
  | nil => simp [popTo]
  | cons u above ih =>
    rw [List.mem_cons, not_or] at h
    simp [popTo, Ne.symm h.1, ih h.2]

theorem get_foldl_set (taken : List (Fin n)) (marks : Vector Bool n) (v : Fin n) :
    (taken.foldl (fun marks (member : Fin n) => marks.set member false member.isLt) marks).get v =
        true ↔
      marks.get v = true ∧ v ∉ taken := by
  induction taken generalizing marks with
  | nil => simp
  | cons u taken ih =>
    rw [List.foldl_cons, ih, get_set]
    by_cases h : u = v
    · simp [h]
    · simp [h, Ne.symm h]

/-- What stands above a vertex on the stack is taken off with it. -/
theorem close_eq {above below : List (Fin n)} (hstack : s.stack = above ++ v :: below)
    (h : v ∉ above) :
    s.close v = { s with
      onStack := (above ++ [v]).foldl
        (fun marks (member : Fin n) => marks.set member false member.isLt) s.onStack
      stack := below
      components := s.components ++ [above ++ [v]] } := by
  rw [close, hstack, popTo_append h]

theorem related_of_mem {α : Type} {R : α → α → Prop} {l : List α} (h : l.Pairwise R) {a b : α}
    (ha : a ∈ l) (hb : b ∈ l) : a = b ∨ R a b ∨ R b a := by
  obtain ⟨before, after, rfl⟩ := List.append_of_mem ha
  obtain ⟨-, hafter, hbefore⟩ := List.pairwise_append.mp h
  rcases List.mem_append.mp hb with hb | hb
  · exact .inr (.inr (hbefore b hb a List.mem_cons_self))
  · rcases List.mem_cons.mp hb with rfl | hb
    · exact .inl rfl
    · exact .inr (.inl ((List.pairwise_cons.mp hafter).1 b hb))

namespace Invariant

theorem stack_nodup (h : Invariant edges s path) : s.stack.Nodup :=
  List.Pairwise.imp (fun hab => by rintro rfl; exact Nat.lt_irrefl _ hab.1) h.ordered

/-- A lower vertex of the stack leads to a higher one. -/
theorem leads_of_le (h : Invariant edges s path) {a b : Fin n} (ha : a ∈ s.stack)
    (hb : b ∈ s.stack) (hle : s.number a ≤ s.number b) : Leads edges a b := by
  rcases related_of_mem h.ordered ha hb with rfl | hab | hba
  · exact .refl
  · exact absurd hab.1 (Nat.not_lt.mpr hle)
  · exact hba.2

/-- Whatever is on the stack leads to the newest vertex of the path. -/
theorem leads_head (h : Invariant edges s (v :: path)) {u : Fin n} (hu : u ∈ s.stack) :
    Leads edges u v := by
  obtain ⟨p, hp, -, hup⟩ := h.returns u hu
  refine hup.trans (h.leads_of_le (h.path_subset p hp) (h.path_subset v List.mem_cons_self) ?_)
  rcases List.mem_cons.mp hp with rfl | hp
  · exact Nat.le_refl _
  · exact Nat.le_of_lt ((List.pairwise_cons.mp h.path_ordered).1 p hp)

/-- Without a path there is nothing on the stack. -/
theorem stack_eq_nil (h : Invariant edges s []) : s.stack = [] := by
  refine List.eq_nil_iff_forall_not_mem.mpr fun u hu => ?_
  obtain ⟨p, hp, -⟩ := h.returns u hu
  cases hp

theorem lower (h : Invariant edges s path) (v : Fin n) (index : Nat) :
    Invariant edges (s.lower v index) path :=
  ⟨h.marked, h.seen, h.number_lt, h.ordered, h.path_ordered, h.path_subset, h.returns, h.followed,
    h.closed, h.covered, h.components, h.disjoint⟩

theorem enter (h : Invariant edges s path) (hv : ¬ s.Seen v)
    (hleads : ∀ u ∈ s.stack, Leads edges u v) : Invariant edges (s.enter v) (v :: path) := by
  have hnotMem : v ∉ s.stack := fun hmem => hv (h.seen v hmem)
  have hold {u : Fin n} (hu : s.Seen u) : (s.enter v).number u = s.number u :=
    number_enter_of_ne (ne_of_seen hv hu)
  have hnew : (s.enter v).number v = s.nextIndex := by rw [number_enter, if_pos rfl]
  have hlt {u : Fin n} (hu : s.Seen u) : (s.enter v).number u < (s.enter v).number v := by
    rw [hold hu, hnew]
    exact h.number_lt u hu
  have hpath {u : Fin n} (hu : u ∈ path) : s.Seen u := h.seen u (h.path_subset u hu)
  have hfinished (u : Fin n) : (s.enter v).Finished u ↔ s.Finished u := by
    rw [Finished, seen_enter, Finished, stack_enter, List.mem_cons, not_or]
    constructor
    · rintro ⟨rfl | hu, hne, hout⟩
      · exact absurd rfl hne
      · exact ⟨hu, hout⟩
    · rintro ⟨hu, hout⟩
      exact ⟨.inr hu, (ne_of_seen hv hu).symm, hout⟩
  refine ⟨fun u => ?_, fun u hu => ?_, fun u hu => ?_, ?_, ?_, fun u hu => ?_, fun u hu => ?_,
    fun u hu hout w hw => ?_, fun u hu w hw => ?_, fun u => ?_, h.components, h.disjoint⟩
  · rw [ComponentSearch.enter, get_set, List.mem_cons]
    split
    next heq => simp [heq]
    next hne => rw [h.marked, or_iff_right (Ne.symm hne)]
  · rw [seen_enter]
    exact (List.mem_cons.mp hu).imp Eq.symm (h.seen u)
  · rcases seen_enter.mp hu with rfl | hu
    · rw [hnew]
      exact Nat.lt_succ_self _
    · rw [hold hu]
      exact Nat.lt_succ_of_lt (h.number_lt u hu)
  · refine List.pairwise_cons.mpr ⟨fun u hu => ⟨hlt (h.seen u hu), hleads u hu⟩, ?_⟩
    refine h.ordered.imp_of_mem fun ha hb hab => ?_
    rw [hold (h.seen _ ha), hold (h.seen _ hb)]
    exact hab
  · refine List.pairwise_cons.mpr ⟨fun u hu => hlt (hpath hu), ?_⟩
    refine h.path_ordered.imp_of_mem fun ha hb hab => ?_
    rw [hold (hpath ha), hold (hpath hb)]
    exact hab
  · rcases List.mem_cons.mp hu with rfl | hu
    · exact List.mem_cons_self
    · exact List.mem_cons_of_mem _ (h.path_subset u hu)
  · rcases List.mem_cons.mp hu with rfl | hu
    · exact ⟨u, List.mem_cons_self, Nat.le_refl _, .refl⟩
    · obtain ⟨p, hp, hle, hup⟩ := h.returns u hu
      refine ⟨p, List.mem_cons_of_mem _ hp, ?_, hup⟩
      rw [hold (hpath hp), hold (h.seen u hu)]
      exact hle
  · rw [List.mem_cons, not_or] at hout
    have hu := (seen_enter.mp hu).resolve_left (Ne.symm hout.1)
    exact seen_enter.mpr (.inr (h.followed u hu hout.2 w hw))
  · exact (hfinished w).mpr (h.closed u ((hfinished u).mp hu) w hw)
  · rw [hfinished]
    exact h.covered u

end Invariant

/-! ## Visits -/

/-- What a visit leaves alone: the numbers and lowlinks that are there, and the stack below the
vertices that are new. -/
structure Frame (s t : ComponentSearch n) : Prop where
  indices : ∀ u, s.Seen u → t.indices.get u = s.indices.get u
  lowlinks : ∀ u, s.Seen u → t.lowlinks.get u = s.lowlinks.get u
  stack : ∃ above, t.stack = above ++ s.stack ∧ ∀ u ∈ above, ¬ s.Seen u
  fresh : ∀ u, ¬ s.Seen u → t.Seen u → s.nextIndex ≤ t.number u
  nextIndex : s.nextIndex ≤ t.nextIndex

namespace Frame

theorem refl (s : ComponentSearch n) : Frame s s :=
  ⟨fun _ _ => rfl, fun _ _ => rfl, ⟨[], rfl, by simp⟩, fun _ hnot h => absurd h hnot, Nat.le_refl _⟩

theorem seen (h : Frame s t) (hv : s.Seen v) : t.Seen v := by
  rw [Seen, h.indices v hv]
  exact hv

theorem number (h : Frame s t) (hv : s.Seen v) : t.number v = s.number v := by
  rw [ComponentSearch.number, h.indices v hv]
  rfl

theorem mem_stack (h : Frame s t) (hv : v ∈ s.stack) : v ∈ t.stack := by
  obtain ⟨above, heq, -⟩ := h.stack
  rw [heq]
  exact List.mem_append_right _ hv

theorem not_seen (h : Frame s t) (hv : v ∈ t.stack) (hout : v ∉ s.stack) : ¬ s.Seen v := by
  obtain ⟨above, heq, hnew⟩ := h.stack
  rw [heq] at hv
  exact hnew v ((List.mem_append.mp hv).resolve_right hout)

theorem trans (h₀ : Frame s₀ s) (h : Frame s t) : Frame s₀ t where
  indices u hu := (h.indices u (h₀.seen hu)).trans (h₀.indices u hu)
  lowlinks u hu := (h.lowlinks u (h₀.seen hu)).trans (h₀.lowlinks u hu)
  stack := by
    obtain ⟨above, heq, hnew⟩ := h₀.stack
    obtain ⟨above', heq', hnew'⟩ := h.stack
    refine ⟨above' ++ above, by rw [heq', heq, List.append_assoc], fun u hu hseen => ?_⟩
    rcases List.mem_append.mp hu with hu | hu
    · exact hnew' u hu (h₀.seen hseen)
    · exact hnew u hu hseen
  fresh u hnot hu := by
    by_cases hs : s.Seen u
    · rw [h.number hs]
      exact h₀.fresh u hnot hs
    · exact Nat.le_trans h₀.nextIndex (h.fresh u hs hu)
  nextIndex := Nat.le_trans h₀.nextIndex h.nextIndex

theorem enter (s : ComponentSearch n) (hv : ¬ s.Seen v) : Frame s (s.enter v) where
  indices u hu := by rw [indices_enter, if_neg (ne_of_seen hv hu)]
  lowlinks u hu := by rw [lowlinks_enter, if_neg (ne_of_seen hv hu)]
  stack := ⟨[v], rfl, by simpa using hv⟩
  fresh u hnot hu := by
    rcases seen_enter.mp hu with rfl | hu
    · exact Nat.le_of_eq (by rw [number_enter, if_pos rfl])
    · exact absurd hu hnot
  nextIndex := Nat.le_succ _

/-- The lowlinks of new vertices may change. -/
theorem lower (h : Frame s t) (hv : ¬ s.Seen v) (index : Nat) : Frame s (t.lower v index) where
  indices := h.indices
  lowlinks u hu := by
    rw [lowlinks_lower, if_neg (ne_of_seen hv hu), h.lowlinks u hu]
  stack := h.stack
  fresh := h.fresh
  nextIndex := h.nextIndex

end Frame

/-- What a visit of a vertex does. Its lowlink is not above what the new vertices on the stack have
edges to, and it is the number of a vertex that was there and that it leads to, unless it is
new. -/
structure Visited (edges : Fin n → List (Fin n)) (s t : ComponentSearch n) (v : Fin n)
    (path : List (Fin n)) : Prop where
  invariant : Invariant edges t path
  frame : Frame s t
  seen : t.Seen v
  low_le : ∀ u ∈ t.stack, u ∉ s.stack → ∀ w ∈ edges u, w ∈ s.stack → t.lowlinks.get v ≤ t.number w
  low_met : t.lowlinks.get v < s.nextIndex →
    ∃ u ∈ s.stack, t.number u = t.lowlinks.get v ∧ Leads edges v u

/-- What holds while the edges of a vertex are followed, of which those to `rest` are still to
follow. The search stood at `s₀` when the visit began. -/
structure Following (edges : Fin n → List (Fin n)) (s₀ s : ComponentSearch n) (v : Fin n)
    (path rest : List (Fin n)) : Prop where
  before : Invariant edges s₀ path
  new : ¬ s₀.Seen v
  invariant : Invariant edges s (v :: path)
  frame : Frame s₀ s
  stack : ∃ above, s.stack = above ++ v :: s₀.stack
  index : s.indices.get v = some s₀.nextIndex
  rest_subset : ∀ w ∈ rest, w ∈ edges v
  followed : ∀ w ∈ edges v, s.Seen w ∨ w ∈ rest
  low_le_number : s.lowlinks.get v ≤ s₀.nextIndex
  low_met : ∃ u ∈ s.stack, s.number u = s.lowlinks.get v ∧ Leads edges v u
  low_le : ∀ u ∈ s.stack, u ∉ s₀.stack → ∀ w ∈ edges u, w ∈ s₀.stack →
    s.lowlinks.get v ≤ s.number w ∨ u = v ∧ w ∈ rest

namespace Following

variable {rest : List (Fin n)}

theorem start (h₀ : Invariant edges s₀ path) (hv : ¬ s₀.Seen v)
    (hleads : ∀ u ∈ s₀.stack, Leads edges u v) :
    Following edges s₀ (s₀.enter v) v path (edges v) := by
  have hlow : (s₀.enter v).lowlinks.get v = s₀.nextIndex := by rw [lowlinks_enter, if_pos rfl]
  refine ⟨h₀, hv, h₀.enter hv hleads, .enter s₀ hv, ⟨[], rfl⟩, ?_, fun w hw => hw,
    fun w hw => .inr hw, Nat.le_of_eq hlow, ⟨v, List.mem_cons_self, ?_, .refl⟩,
    fun u hu hout w hw hin => .inr ?_⟩
  · rw [indices_enter, if_pos rfl]
  · rw [number_enter, if_pos rfl, hlow]
  · obtain rfl := (List.mem_cons.mp hu).resolve_right hout
    exact ⟨rfl, hw⟩

theorem seen (h : Following edges s₀ s v path rest) : s.Seen v := by
  rw [Seen, h.index]
  exact Option.some_ne_none _

theorem number (h : Following edges s₀ s v path rest) : s.number v = s₀.nextIndex := by
  rw [ComponentSearch.number, h.index]
  rfl

/-- The edge to `next` is followed, the search stands at `t`, and the lowlink is lowered to an index
that was met from `next` on. -/
theorem lower {next : Fin n} {index : Nat} (h : Following edges s₀ s v path (next :: rest))
    (ht : Invariant edges t (v :: path)) (hframe : Frame s t) (hseen : t.Seen next)
    (hmet : index < s.lowlinks.get v → ∃ u ∈ s.stack, t.number u = index ∧ Leads edges next u)
    (hnew : ∀ u ∈ t.stack, u ∉ s.stack → ∀ w ∈ edges u, w ∈ s.stack → index ≤ t.number w)
    (hnext : next ∈ s₀.stack → index ≤ t.number next) :
    Following edges s₀ (t.lower v index) v path rest := by
  have hlow : (t.lower v index).lowlinks.get v = min (s.lowlinks.get v) index := by
    rw [lowlinks_lower, if_pos rfl, hframe.lowlinks v h.seen]
  have hnumber {u : Fin n} (hu : u ∈ s.stack) : t.number u = s.number u :=
    hframe.number (h.invariant.seen u hu)
  refine ⟨h.before, h.new, ht.lower v index, (h.frame.trans hframe).lower h.new index, ?_, ?_,
    fun w hw => h.rest_subset w (List.mem_cons_of_mem _ hw), fun w hw => ?_, ?_, ?_, ?_⟩
  · obtain ⟨above, heq⟩ := h.stack
    obtain ⟨above', heq', -⟩ := hframe.stack
    exact ⟨above' ++ above, by rw [List.append_assoc, ← heq]; exact heq'⟩
  · exact (hframe.indices v h.seen).trans h.index
  · rcases h.followed w hw with hw | hw
    · exact .inl (hframe.seen hw)
    · exact (List.mem_cons.mp hw).imp_left fun (heq : w = next) => heq ▸ hseen
  · rw [hlow]
    exact Nat.le_trans (Nat.min_le_left _ _) h.low_le_number
  · rw [hlow]
    rcases Nat.lt_or_ge index (s.lowlinks.get v) with hlt | hge
    · obtain ⟨u, hu, heq, hleads⟩ := hmet hlt
      rw [Nat.min_eq_right (Nat.le_of_lt hlt)]
      exact ⟨u, hframe.mem_stack hu, heq, .head (h.rest_subset next List.mem_cons_self) hleads⟩
    · obtain ⟨u, hu, heq, hleads⟩ := h.low_met
      rw [Nat.min_eq_left hge]
      exact ⟨u, hframe.mem_stack hu, (hnumber hu).trans heq, hleads⟩
  · intro u hu hout w hw hin
    have hin' : w ∈ s.stack := h.frame.mem_stack hin
    rw [hlow]
    by_cases hold : u ∈ s.stack
    · rcases h.low_le u hold hout w hw hin with hle | ⟨rfl, hrest⟩
      · exact .inl (Nat.le_trans (Nat.min_le_left _ _) ((hnumber hin').symm ▸ hle))
      · rcases List.mem_cons.mp hrest with rfl | hrest
        · exact .inl (Nat.le_trans (Nat.min_le_right _ _) (hnext hin))
        · exact .inr ⟨rfl, hrest⟩
    · exact .inl (Nat.le_trans (Nat.min_le_right _ _) (hnew u hu hold w hw hin'))

/-- An edge to a vertex that is on the stack. -/
theorem lower_index {next : Fin n} (h : Following edges s₀ s v path (next :: rest))
    (hnext : next ∈ s.stack) : Following edges s₀ (s.lower v (s.number next)) v path rest :=
  h.lower h.invariant (.refl s) (h.invariant.seen next hnext) (fun _ => ⟨next, hnext, rfl, .refl⟩)
    (fun _ hu hout => absurd hu hout) fun _ => Nat.le_refl _

/-- An edge to a vertex that was visited just now. -/
theorem lower_visited {next : Fin n} (h : Following edges s₀ s v path (next :: rest))
    (hnext : ¬ s.Seen next) (ht : Visited edges s t next (v :: path)) :
    Following edges s₀ (t.lower v (t.lowlinks.get next)) v path rest := by
  refine h.lower ht.invariant ht.frame ht.seen (fun hlt => ht.low_met ?_) ht.low_le fun hin => ?_
  · exact Nat.lt_of_lt_of_le hlt (Nat.le_trans h.low_le_number h.frame.nextIndex)
  · exact absurd (h.invariant.seen next (h.frame.mem_stack hin)) hnext

/-- An edge to a vertex that is finished. -/
theorem skip {next : Fin n} (h : Following edges s₀ s v path (next :: rest))
    (hnext : s.Finished next) : Following edges s₀ s v path rest := by
  refine ⟨h.before, h.new, h.invariant, h.frame, h.stack, h.index,
    fun w hw => h.rest_subset w (List.mem_cons_of_mem _ hw), fun w hw => ?_, h.low_le_number,
    h.low_met, fun u hu hout w hw hin => ?_⟩
  · rcases h.followed w hw with hw | hw
    · exact .inl hw
    · exact (List.mem_cons.mp hw).imp_left fun (heq : w = next) => heq ▸ hnext.1
  · refine (h.low_le u hu hout w hw hin).imp_right (And.imp_right fun hrest => ?_)
    refine (List.mem_cons.mp hrest).resolve_left fun heq => hnext.2 ?_
    exact heq ▸ h.frame.mem_stack hin

/-- One edge is followed. -/
theorem follow {visit : Fin n → ComponentSearch n → ComponentSearch n} {next : Fin n}
    (h : Following edges s₀ s v path (next :: rest))
    (hvisit : ¬ s.Seen next → Visited edges s (visit next s) next (v :: path)) :
    Following edges s₀ (s.follow visit v next) v path rest := by
  rw [ComponentSearch.follow]
  split
  next hnone =>
    have hnext : ¬ s.Seen next := fun hseen => hseen hnone
    exact h.lower_visited hnext (hvisit hnext)
  next index hindex =>
    have hseen : s.Seen next := by
      rw [Seen, hindex]
      exact Option.some_ne_none _
    have hnumber : s.number next = index := by
      rw [ComponentSearch.number, hindex]
      rfl
    split
    next hmarked => exact hnumber ▸ h.lower_index ((h.invariant.marked next).mp hmarked)
    next hmarked => exact h.skip ⟨hseen, mt (h.invariant.marked next).mpr hmarked⟩

/-! ### Leaving a vertex -/

/-- All edges from vertices that are not on the path any more have been followed. -/
theorem seen_of_edge (h : Following edges s₀ s v path []) {u : Fin n} (hu : s.Seen u)
    (hout : u ∉ path) (hw : w ∈ edges u) : s.Seen w := by
  by_cases heq : u = v
  · subst heq
    exact (h.followed w hw).resolve_right List.not_mem_nil
  · exact h.invariant.followed u hu (fun hmem => (List.mem_cons.mp hmem).elim heq hout) w hw

/-- A vertex whose lowlink is less than its number stays on the stack. -/
theorem visited_of_lt (h : Following edges s₀ s v path [])
    (hlow : s.lowlinks.get v < s₀.nextIndex) : Visited edges s₀ s v path := by
  have hinv := h.invariant
  have hlt {u : Fin n} (hu : s.number u < s₀.nextIndex) (hmem : u ∈ v :: path) : u ∈ path := by
    refine (List.mem_cons.mp hmem).resolve_left ?_
    rintro rfl
    exact Nat.lt_irrefl _ (h.number ▸ hu)
  refine ⟨⟨hinv.marked, hinv.seen, hinv.number_lt, hinv.ordered,
    (List.pairwise_cons.mp hinv.path_ordered).2,
    fun u hu => hinv.path_subset u (List.mem_cons_of_mem _ hu), fun u hu => ?_,
    fun u hu hout w hw => h.seen_of_edge hu hout hw, hinv.closed, hinv.covered, hinv.components,
    hinv.disjoint⟩, h.frame, h.seen, ?_, fun _ => ?_⟩
  · obtain ⟨p, hp, hle, hup⟩ := hinv.returns u hu
    rcases List.mem_cons.mp hp with rfl | hp
    · -- the vertex that is left leads to one below it, and that one to the path
      obtain ⟨z, hz, hnumber, hpz⟩ := h.low_met
      obtain ⟨q, hq, hqz, hzq⟩ := hinv.returns z hz
      have hqlt : s.number q < s₀.nextIndex :=
        Nat.lt_of_le_of_lt hqz (hnumber.symm ▸ hlow)
      refine ⟨q, hlt hqlt hq, ?_, hup.trans (hpz.trans hzq)⟩
      rw [h.number] at hle
      exact Nat.le_of_lt (Nat.lt_of_lt_of_le hqlt hle)
    · exact ⟨p, hp, hle, hup⟩
  · exact fun u hu hout w hw hin =>
      (h.low_le u hu hout w hw hin).resolve_right fun hnil => List.not_mem_nil hnil.2
  · obtain ⟨u, hu, hnumber, hleads⟩ := h.low_met
    refine ⟨u, ?_, hnumber, hleads⟩
    by_contra hout
    have hfresh := h.frame.fresh u (h.frame.not_seen hu hout) (hinv.seen u hu)
    rw [hnumber] at hfresh
    exact Nat.not_lt.mpr hfresh hlow

/-- The part of the stack from the vertex on. -/
theorem mem_top_iff {above : List (Fin n)} (h : Following edges s₀ s v path rest)
    (hstack : s.stack = above ++ v :: s₀.stack) {u : Fin n} :
    u ∈ above ++ [v] ↔ u ∈ s.stack ∧ u ∉ s₀.stack := by
  have hnodup := h.invariant.stack_nodup
  rw [List.append_cons] at hstack
  rw [hstack, List.nodup_append] at hnodup
  rw [hstack]
  constructor
  · exact fun hu => ⟨List.mem_append_left _ hu, fun hin => hnodup.2.2 u hu u hin rfl⟩
  · exact fun ⟨hu, hout⟩ => (List.mem_append.mp hu).resolve_right hout

/-- Edges from the top of the stack stay in it or lead to what is finished, if the lowlink of the
vertex is its number. -/
theorem top_or_finished (h : Following edges s₀ s v path [])
    (hlow : s.lowlinks.get v = s₀.nextIndex) {u : Fin n} (hu : u ∈ s.stack) (hout : u ∉ s₀.stack)
    (hw : w ∈ edges u) : w ∈ s.stack ∧ w ∉ s₀.stack ∨ s.Finished w := by
  have hseen : s.Seen w :=
    h.seen_of_edge (h.invariant.seen u hu) (fun hp => hout (h.before.path_subset u hp)) hw
  by_cases hin : w ∈ s.stack
  · refine .inl ⟨hin, fun hbelow => ?_⟩
    have hle := (h.low_le u hu hout w hw hbelow).resolve_right fun hnil =>
      List.not_mem_nil hnil.2
    have hlt := h.before.number_lt w (h.before.seen w hbelow)
    rw [hlow, h.frame.number (h.before.seen w hbelow)] at hle
    exact Nat.not_lt.mpr hle hlt
  · exact .inr ⟨hseen, hin⟩

end Following

theorem Invariant.finished_of_leads (h : Invariant edges s path) (hv : s.Finished v)
    (hleads : Leads edges v w) : s.Finished w := by
  induction hleads with
  | refl => exact hv
  | tail _ hstep ih => exact h.closed _ ih _ hstep

namespace Following

/-- If the lowlink of a vertex is its number, the top of the stack is its component. -/
theorem isComponent {above : List (Fin n)} (h : Following edges s₀ s v path [])
    (hlow : s.lowlinks.get v = s₀.nextIndex) (hstack : s.stack = above ++ v :: s₀.stack) :
    IsComponent edges (above ++ [v]) := by
  have hnodup := h.invariant.stack_nodup
  rw [hstack, List.append_cons] at hnodup
  have hv : v ∈ s.stack := h.invariant.path_subset v List.mem_cons_self
  refine ⟨hnodup.of_append_left, v, by simp, fun w => ⟨fun hw => ?_, fun ⟨hto, hback⟩ => ?_⟩⟩
  · obtain ⟨hw, hout⟩ := (h.mem_top_iff hstack).mp hw
    have hle : s.number v ≤ s.number w := by
      rw [h.number]
      exact h.frame.fresh w (h.frame.not_seen hw hout) (h.invariant.seen w hw)
    exact ⟨h.invariant.leads_of_le hv hw hle, h.invariant.leads_head hw⟩
  · -- what the vertex leads to is in the top of the stack or finished
    have hclosure {x : Fin n} (hx : Leads edges v x) :
        x ∈ s.stack ∧ x ∉ s₀.stack ∨ s.Finished x := by
      induction hx with
      | refl => exact .inl ((h.mem_top_iff hstack).mp (by simp))
      | tail _ hstep ih =>
        rcases ih with ⟨hin, hout⟩ | hfinished
        · exact h.top_or_finished hlow hin hout hstep
        · exact .inr (h.invariant.closed _ hfinished _ hstep)
    rcases hclosure hto with hw | hfinished
    · exact (h.mem_top_iff hstack).mpr hw
    · exact absurd hv (h.invariant.finished_of_leads hfinished hback).2

/-- What is off the stack once the top is taken away: what was finished, and the top. -/
theorem off_stack_iff {above : List (Fin n)} (h : Following edges s₀ s v path rest)
    (hstack : s.stack = above ++ v :: s₀.stack) {u : Fin n} :
    s.Seen u ∧ u ∉ s₀.stack ↔ s.Finished u ∨ u ∈ above ++ [v] := by
  rw [h.mem_top_iff hstack, Finished]
  constructor
  · rintro ⟨hseen, hout⟩
    by_cases hu : u ∈ s.stack
    · exact .inr ⟨hu, hout⟩
    · exact .inl ⟨hseen, hu⟩
  · rintro (⟨hseen, hout⟩ | ⟨hu, hout⟩)
    · exact ⟨hseen, fun hu => hout (h.frame.mem_stack hu)⟩
    · exact ⟨h.invariant.seen u hu, hout⟩

/-- Taking a component off the stack keeps the invariant. -/
theorem invariant_close {above : List (Fin n)} (h : Following edges s₀ s v path [])
    (hlow : s.lowlinks.get v = s₀.nextIndex) (hstack : s.stack = above ++ v :: s₀.stack)
    (hfresh : v ∉ above) : Invariant edges (s.close v) path := by
  have hinv := h.invariant
  have htop {u : Fin n} : u ∈ above ++ [v] ↔ u ∈ s.stack ∧ u ∉ s₀.stack := h.mem_top_iff hstack
  have hfinished (u : Fin n) : s.Seen u ∧ u ∉ s₀.stack ↔ s.Finished u ∨ u ∈ above ++ [v] :=
    h.off_stack_iff hstack
  have hold {u : Fin n} (hu : u ∈ s₀.stack) : s.number u = s₀.number u :=
    h.frame.number (h.before.seen u hu)
  rw [close_eq hstack hfresh]
  refine ⟨fun u => ?_, fun u hu => h.frame.seen (h.before.seen u hu), hinv.number_lt, ?_,
    (List.pairwise_cons.mp hinv.path_ordered).2, h.before.path_subset, fun u hu => ?_,
    fun u hu hout w hw => h.seen_of_edge hu hout hw, fun u hu w hw => ?_, fun u => ?_, ?_, ?_⟩
  · refine (get_foldl_set _ _ u).trans ?_
    rw [hinv.marked, htop]
    constructor
    · exact fun ⟨hu, hnot⟩ => by_contra fun hout => hnot ⟨hu, hout⟩
    · exact fun hu => ⟨h.frame.mem_stack hu, fun hnot => hnot.2 hu⟩
  · refine h.before.ordered.imp_of_mem fun ha hb hab => ?_
    show s.number _ < s.number _ ∧ _
    rw [hold ha, hold hb]
    exact hab
  · obtain ⟨p, hp, hle, hup⟩ := h.before.returns u hu
    refine ⟨p, hp, ?_, hup⟩
    show s.number p ≤ s.number u
    rw [hold (h.before.path_subset p hp), hold hu]
    exact hle
  · refine (hfinished w).mpr ?_
    rcases (hfinished u).mp hu with hu | hu
    · exact .inl (hinv.closed u hu w hw)
    · obtain ⟨hu, hout⟩ := htop.mp hu
      rw [htop]
      exact (h.top_or_finished hlow hu hout hw).symm
  · refine (hfinished u).trans ?_
    rw [hinv.covered]
    simp only [List.mem_append (t := [above ++ [v]]), List.mem_singleton, or_and_right, exists_or,
      exists_eq_left]
  · simp only [List.forall_mem_append, List.forall_mem_singleton]
    exact ⟨hinv.components, h.isComponent hlow hstack⟩
  · refine List.pairwise_append.mpr ⟨hinv.disjoint, List.pairwise_singleton _ _, ?_⟩
    intro component hmem other hother u hu hu'
    rw [List.mem_singleton.mp hother] at hu'
    exact ((hinv.covered u).mpr ⟨component, hmem, hu⟩).2 (htop.mp hu').1

/-- A vertex whose lowlink is its number is taken off the stack with its component. -/
theorem visited_close (h : Following edges s₀ s v path [])
    (hlow : s.lowlinks.get v = s₀.nextIndex) : Visited edges s₀ (s.close v) v path := by
  obtain ⟨above, hstack⟩ := h.stack
  have hfresh : v ∉ above := by
    obtain ⟨hnodup, -⟩ := h.isComponent hlow hstack
    rw [List.nodup_append] at hnodup
    exact fun hv => hnodup.2.2 v hv v List.mem_cons_self rfl
  have hinv := h.invariant_close hlow hstack hfresh
  rw [close_eq hstack hfresh] at hinv ⊢
  refine ⟨hinv, ?_, h.seen, fun u hu hout => absurd hu hout, fun hlt => ?_⟩
  · exact ⟨h.frame.indices, h.frame.lowlinks, ⟨[], rfl, by simp⟩, h.frame.fresh, h.frame.nextIndex⟩
  · exact absurd (hlow ▸ hlt) (Nat.lt_irrefl _)

theorem leave (h : Following edges s₀ s v path []) : Visited edges s₀ (s.leave v) v path := by
  rw [ComponentSearch.leave, h.index]
  split
  next hlow => exact h.visited_close (Option.some.inj hlow)
  next hlow =>
    refine h.visited_of_lt (Nat.lt_of_le_of_ne h.low_le_number fun heq => hlow ?_)
    rw [heq]

end Following

/-! ## The whole search -/

/-- The number of vertices without a number. -/
def unseen (s : ComponentSearch n) : Nat :=
  (List.finRange n).countP fun v => (s.indices.get v).isNone

theorem isNone_iff : (s.indices.get v).isNone = true ↔ ¬ s.Seen v := by
  rw [Option.isNone_iff_eq_none, Seen, not_not]

theorem unseen_le (s : ComponentSearch n) : s.unseen ≤ n :=
  Nat.le_trans List.countP_le_length (Nat.le_of_eq List.length_finRange)

theorem unseen_lt (h : Frame s t) (hv : ¬ s.Seen v) (hv' : t.Seen v) : t.unseen < s.unseen := by
  have hmono (l : List (Fin n)) :
      l.countP (fun v => (t.indices.get v).isNone) ≤
        l.countP (fun v => (s.indices.get v).isNone) := by
    refine List.countP_mono_left fun u _ hu => ?_
    exact isNone_iff.mpr fun hs => isNone_iff.mp hu (h.seen hs)
  obtain ⟨before, after, heq⟩ := List.append_of_mem (List.mem_finRange v)
  have hbefore := hmono before
  have hafter := hmono after
  have hnone : (s.indices.get v).isNone = true := isNone_iff.mpr hv
  have hsome : (t.indices.get v).isNone = false :=
    Bool.eq_false_iff.mpr (isNone_iff.not_left.mpr hv')
  rw [unseen, unseen, heq, List.countP_append, List.countP_append, List.countP_cons,
    List.countP_cons, hnone, hsome]
  simp only [if_true, Bool.false_eq_true, if_false]
  omega

/-- A visit that may go deep enough does what it should. -/
theorem Invariant.visit {depth : Nat} (h : Invariant edges s path) (hv : ¬ s.Seen v)
    (hleads : ∀ u ∈ s.stack, Leads edges u v) (hdepth : s.unseen ≤ depth) :
    Visited edges s (s.visit edges depth v) v path := by
  induction depth generalizing s v path with
  | zero =>
    have hpos : 0 < s.unseen :=
      List.countP_pos_iff.mpr ⟨v, List.mem_finRange v, isNone_iff.mpr hv⟩
    omega
  | succ depth ih =>
    -- the edges are followed one after the other
    have hrun (rest : List (Fin n)) (s' : ComponentSearch n)
        (hs' : Following edges s s' v path rest) :
        Following edges s (rest.foldl (follow (ComponentSearch.visit edges depth) v) s') v path
          [] := by
      induction rest generalizing s' with
      | nil => exact hs'
      | cons next rest hrest =>
        refine hrest _ (hs'.follow fun hnext => ih hs'.invariant hnext (fun u hu => ?_) ?_)
        · exact (hs'.invariant.leads_head hu).tail (hs'.rest_subset next List.mem_cons_self)
        · have := unseen_lt hs'.frame hs'.new hs'.seen
          omega
    exact (hrun (edges v) _ (.start h hv hleads)).leave

theorem invariant_initial (edges : Fin n → List (Fin n)) : Invariant edges {} [] := by
  have hseen (v : Fin n) : ¬ ({} : ComponentSearch n).Seen v := by simp [Seen]
  refine ⟨by simp, by simp, fun v hv => absurd hv (hseen v), .nil, .nil, by simp, by simp,
    fun v hv => absurd hv (hseen v), fun v hv => absurd hv.1 (hseen v), fun v => ?_, by simp, .nil⟩
  simp [Finished, hseen]

/-- The search ends with an empty path, and has come to every vertex. -/
theorem run_spec (edges : Fin n → List (Fin n)) :
    Invariant edges (run edges) [] ∧ ∀ v, (run edges).Seen v := by
  have hall (vertices : List (Fin n)) (s : ComponentSearch n) (h : Invariant edges s []) :
      let t := vertices.foldl
        (fun s v => if (s.indices.get v).isNone then s.visit edges n v else s) s
      Invariant edges t [] ∧ Frame s t ∧ ∀ v ∈ vertices, t.Seen v := by
    induction vertices generalizing s with
    | nil => exact ⟨h, .refl s, by simp⟩
    | cons v vertices ih =>
      -- whether it is visited now or was before, the vertex has a number
      have hstep : let t := if (s.indices.get v).isNone then s.visit edges n v else s
          Invariant edges t [] ∧ Frame s t ∧ t.Seen v := by
        dsimp only
        split
        next hnone =>
          have hvisited : Visited edges s (s.visit edges n v) v [] :=
            h.visit (isNone_iff.mp hnone) (by rw [h.stack_eq_nil]; simp) s.unseen_le
          exact ⟨hvisited.invariant, hvisited.frame, hvisited.seen⟩
        next hsome => exact ⟨h, .refl s, by_contra fun hv => hsome (isNone_iff.mpr hv)⟩
      obtain ⟨hinv, hframe, hseen⟩ := hstep
      obtain ⟨hinv', hframe', hall⟩ := ih _ hinv
      exact ⟨hinv', hframe.trans hframe',
        List.forall_mem_cons.mpr ⟨hframe'.seen hseen, hall⟩⟩
  obtain ⟨hinv, -, hseen⟩ := hall (List.finRange n) {} (invariant_initial edges)
  exact ⟨hinv, fun v => hseen v (List.mem_finRange v)⟩

/-- What the search finds are the strongly connected components: every vertex is in one of them, and
no two have a vertex in common. -/
theorem components_run (edges : Fin n → List (Fin n)) :
    (∀ component ∈ (run edges).components, IsComponent edges component) ∧
      (∀ v, ∃ component ∈ (run edges).components, v ∈ component) ∧
      (run edges).components.Pairwise List.Disjoint := by
  obtain ⟨hinv, hseen⟩ := run_spec edges
  refine ⟨hinv.components, fun v => (hinv.covered v).mp ⟨hseen v, ?_⟩, hinv.disjoint⟩
  rw [hinv.stack_eq_nil]
  exact List.not_mem_nil

end NodeShader.ComponentSearch
