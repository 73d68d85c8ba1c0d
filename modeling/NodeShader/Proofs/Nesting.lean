import Mathlib.Data.List.Chain
import NodeShader.Glsl.Brackets

/-!
# Texts with nested brackets

`nest` follows the brackets of a text and keeps those that are open. `Nests opened cs closed` says
that a text without comments leads from one such list to another, and that nothing put after it can
begin a comment with its last character. So texts are put together like steps of a program
(`Nests.append`), each of them runs the same under more open brackets (`Nests.frame`), and a text
that leads from no open bracket to none passes the check (`Nests.bracketFault?_eq_none`).
-/

namespace NodeShader.Glsl

/-- The brackets that are open after a text, the innermost first, if `opened` are before it. -/
def nest (opened : List Char) : List Char → Option (List Char)
  | [] => some opened
  | c :: cs =>
    if isBracket c then
      if isOpener c then
        nest (c :: opened) cs
      else
        match opened with
        | [] => none
        | innermost :: others => if c = closerOf innermost then nest others cs else none
    else
      nest opened cs

/-- No comment begins inside the text. -/
def Uncommented (cs : List Char) : Prop := cs.IsChain fun a b => a = '/' → b ≠ '/' ∧ b ≠ '*'

instance (cs : List Char) : Decidable (Uncommented cs) :=
  inferInstanceAs (Decidable (cs.IsChain fun a b => a = '/' → b ≠ '/' ∧ b ≠ '*'))

theorem Uncommented.of_isInfix {cs part : List Char} (h : Uncommented cs) (hpart : part <:+: cs) :
    Uncommented part :=
  List.IsChain.infix h hpart

/-! ## The brackets of a text -/

theorem isBracket_iff {c : Char} :
    isBracket c = true ↔ c ∈ ['(', ')', '[', ']', '\x7b', '\x7d'] := by
  simp [isBracket, or_assoc]

/-- What holds of no bracket tells characters from brackets. -/
theorem isBracket_eq_false {p : Char → Bool} {c : Char}
    (hp : ['(', ')', '[', ']', '\x7b', '\x7d'].all (fun mark => !p mark) = true)
    (h : p c = true) : isBracket c = false := by
  refine Bool.eq_false_iff.mpr fun hbracket => ?_
  have hmark := List.all_eq_true.mp hp c (isBracket_iff.mp hbracket)
  rw [h] at hmark
  cases hmark

theorem nest_append (opened cs ds : List Char) :
    nest opened (cs ++ ds) = (nest opened cs).bind fun between => nest between ds := by
  fun_induction nest opened cs <;> simp_all [nest]

/-- Brackets further out do not matter. -/
theorem nest_frame {opened cs closed : List Char} (h : nest opened cs = some closed)
    (more : List Char) : nest (opened ++ more) cs = some (closed ++ more) := by
  fun_induction nest opened cs <;> simp_all [nest]

theorem nest_filter (opened cs : List Char) :
    nest opened (cs.filter isBracket) = nest opened cs := by
  fun_induction nest opened cs <;> simp_all [nest]

/-- The place of the character `c`, if the one before it has this place. -/
def placeAfter (line column : Nat) (c : Char) : Nat × Nat :=
  if c = '\n' then (line + 1, 0) else (line, column + 1)

theorem marks_cons (region : Region) (line column : Nat) (c : Char) (cs : List Char) :
    marks region line column (c :: cs) =
      let place := placeAfter line column c
      let others := marks (region.next c cs.head?) place.1 place.2 cs
      if region = .code ∧ isBracket c then ⟨c, place.1, place.2⟩ :: others else others := rfl

theorem isBracket_of_mem_marks {region : Region} {line column : Nat} {cs : List Char} {m : Mark}
    (h : m ∈ marks region line column cs) : isBracket m.bracket = true := by
  induction cs generalizing region line column with
  | nil => cases h
  | cons c cs ih =>
    simp only [marks_cons] at h
    split at h
    next hmark =>
      rcases List.mem_cons.mp h with rfl | h
      · exact hmark.2
      · exact ih h
    next => exact ih h

/-- Where no comment begins, all brackets count. -/
theorem map_bracket_marks {cs : List Char} (h : Uncommented cs) (line column : Nat) :
    (marks .code line column cs).map Mark.bracket = cs.filter isBracket := by
  induction cs generalizing line column with
  | nil => rfl
  | cons c cs ih =>
    obtain ⟨hfirst, hrest⟩ := List.isChain_cons.mp h
    have hcode : Region.next .code c cs.head? = .code := by
      rw [Region.next, if_neg, if_neg]
      · rintro ⟨hc, hhead⟩
        exact (hfirst '*' hhead hc).2 rfl
      · rintro ⟨hc, hhead⟩
        exact (hfirst '/' hhead hc).1 rfl
    simp only [marks_cons, hcode]
    by_cases hc : isBracket c = true
    · rw [if_pos ⟨trivial, hc⟩, List.map_cons, ih hrest, List.filter_cons_of_pos hc]
    · rw [if_neg fun hand => hc hand.2, ih hrest, List.filter_cons_of_neg hc]

theorem nestingFault?_eq_none_iff {unclosed ms : List Mark}
    (h : ∀ m ∈ ms, isBracket m.bracket = true) :
    nestingFault? unclosed ms = none ↔
      nest (unclosed.map Mark.bracket) (ms.map Mark.bracket) = some [] := by
  induction ms generalizing unclosed with
  | nil => simp [nestingFault?, nest]
  | cons m ms ih =>
    have hm : isBracket m.bracket = true := h m List.mem_cons_self
    have ih (unclosed : List Mark) := @ih unclosed fun x hx => h x (List.mem_cons_of_mem _ hx)
    by_cases hopener : isOpener m.bracket = true
    · simp only [nestingFault?, nest, List.map_cons, hm, hopener, if_true]
      exact ih (m :: unclosed)
    · cases unclosed with
      | nil => simp [nestingFault?, nest, hm, hopener]
      | cons innermost others =>
        by_cases hclose : m.bracket = closerOf innermost.bracket
        · have hcloser : isOpener (closerOf innermost.bracket) ≠ true := hclose ▸ hopener
          have hbracket : isBracket (closerOf innermost.bracket) = true := hclose ▸ hm
          simpa [nestingFault?, nest, hclose, hcloser, hbracket] using ih others
        · simp [nestingFault?, nest, hm, hopener, hclose]

theorem bracketFault?_eq_none_iff {text : String} (h : Uncommented text.toList) :
    bracketFault? text = none ↔ nest [] text.toList = some [] := by
  rw [bracketFault?, nestingFault?_eq_none_iff fun m => isBracket_of_mem_marks, List.map_nil,
    map_bracket_marks h, nest_filter]

/-! ## Putting texts together -/

/-- The text leads from the open brackets `opened` to the open brackets `closed`, and neither in it
nor with its last character a comment begins. -/
structure Nests (opened cs closed : List Char) : Prop where
  uncommented : Uncommented cs
  ending : '/' ∉ cs.getLast?
  nest : nest opened cs = some closed

instance (opened cs closed : List Char) : Decidable (Nests opened cs closed) :=
  decidable_of_iff (Uncommented cs ∧ '/' ∉ cs.getLast? ∧ nest opened cs = some closed)
    ⟨fun ⟨h, h', h''⟩ => ⟨h, h', h''⟩, fun ⟨h, h', h''⟩ => ⟨h, h', h''⟩⟩

/-- The characters of the text are neither brackets nor a part of what begins a comment. -/
def Plain (cs : List Char) : Prop := ∀ c ∈ cs, isBracket c = false ∧ c ≠ '/'

instance (cs : List Char) : Decidable (Plain cs) :=
  List.decidableBAll (fun c => isBracket c = false ∧ c ≠ '/') cs

section

variable {opened between closed cs ds : List Char}

theorem Uncommented.append (hc : Uncommented cs) (hlast : '/' ∉ cs.getLast?)
    (hd : Uncommented ds) : Uncommented (cs ++ ds) := by
  refine List.IsChain.append hc hd fun a ha b _ hslash => ?_
  exact absurd (hslash ▸ ha) hlast

namespace Nests

theorem nil : Nests opened [] opened := ⟨List.isChain_nil, by simp, rfl⟩

theorem append (hc : Nests opened cs between) (hd : Nests between ds closed) :
    Nests opened (cs ++ ds) closed where
  uncommented := hc.uncommented.append hc.ending hd.uncommented
  ending := by
    rw [List.getLast?_append]
    cases hlast : ds.getLast? with
    | none => exact hc.ending
    | some c =>
      rw [Option.some_or, ← hlast]
      exact hd.ending
  nest := by rw [nest_append, hc.nest, Option.bind_some, hd.nest]

/-- Brackets further out do not matter. -/
theorem frame (h : Nests opened cs closed) (more : List Char) :
    Nests (opened ++ more) cs (closed ++ more) :=
  ⟨h.uncommented, h.ending, nest_frame h.nest more⟩

/-- What opens nothing for good may stand anywhere. -/
theorem anywhere (h : Nests [] cs []) (opened : List Char) : Nests opened cs opened :=
  h.frame opened

theorem join {texts : List String} (h : ∀ text ∈ texts, Nests [] text.toList []) :
    Nests [] (String.join texts).toList [] := by
  rw [String.toList_join]
  induction texts with
  | nil => exact nil
  | cons text texts ih =>
    obtain ⟨hfirst, hrest⟩ := List.forall_mem_cons.mp h
    exact hfirst.append (ih hrest)

theorem bracketFault?_eq_none {text : String} (h : Nests [] text.toList []) :
    bracketFault? text = none := (bracketFault?_eq_none_iff h.uncommented).mpr h.nest

end Nests

theorem Plain.subset (h : Plain cs) (hsubset : ∀ c ∈ ds, c ∈ cs) : Plain ds :=
  fun c hc => h c (hsubset c hc)

theorem Plain.append (hc : Plain cs) (hd : Plain ds) : Plain (cs ++ ds) :=
  List.forall_mem_append.mpr ⟨hc, hd⟩

theorem Plain.filter_isBracket (h : Plain cs) : cs.filter isBracket = [] :=
  List.filter_eq_nil_iff.mpr fun c hc => by simp [(h c hc).1]

theorem Plain.nests (h : Plain cs) (opened : List Char) : Nests opened cs opened where
  uncommented :=
    (List.pairwise_of_forall_mem_list fun a ha b _ hslash => absurd hslash (h a ha).2).isChain
  ending hlast := (h '/' (List.mem_of_getLast? hlast)).2 rfl
  nest := by rw [← nest_filter, h.filter_isBracket, Glsl.nest]

end

end NodeShader.Glsl
