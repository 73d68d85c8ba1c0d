import Mathlib.Data.List.TakeWhile
import NodeShader.Proofs.Nesting

/-!
# The brackets of a text

The brackets that count are those outside comments. `bracketsOutside` finds them by cutting whole
comments out of a text, and gives each the line and the column that follow from all that stands
before it. `Nested` says when brackets are nested, and `Opened` which of them are left open where
every closing one has its opening one.

* `marksAfter_eq`: a pass over the text that follows comments character by character finds the same
  brackets at the same places.
* `nestingFault?_eq_iff`: what is wrong with a list of brackets.
* `bracketFault?_exact`: what is wrong with a text.
-/

namespace NodeShader.Glsl

/-! ## Places -/

/-- How many characters stand behind the last line break of a text. -/
def sinceBreak (before : List Char) : Nat := (before.reverse.takeWhile (· ≠ '\n')).length

/-- The line of a character with this text before it. -/
def lineAfter (before : List Char) : Nat := before.count '\n' + 1

/-- The column of a character with this text before it. -/
def columnAfter (before : List Char) : Nat := sinceBreak before + 1

theorem placeAfter_eq (before : List Char) (c : Char) :
    placeAfter (lineAfter before) (sinceBreak before) c =
      (lineAfter (before ++ [c]), sinceBreak (before ++ [c])) := by
  by_cases h : c = '\n'
  · simp [placeAfter, lineAfter, sinceBreak, h]
  · simp [placeAfter, lineAfter, sinceBreak, h]

/-- The brackets outside comments, given all that stands before the text. -/
def marksAfter (region : Region) (before cs : List Char) : List Mark :=
  marks region (lineAfter before) (sinceBreak before) cs

section

variable {region : Region} (before : List Char) {c : Char} {cs : List Char}

/-- No bracket counts in a comment. -/
theorem marksAfter_comment (h : region ≠ .code) :
    marksAfter region before (c :: cs) =
      marksAfter (region.next c cs.head?) (before ++ [c]) cs := by
  rw [marksAfter, marks_cons, placeAfter_eq]
  exact if_neg fun hand => h hand.1

theorem marksAfter_plain (h : isBracket c = false) :
    marksAfter region before (c :: cs) =
      marksAfter (region.next c cs.head?) (before ++ [c]) cs := by
  rw [marksAfter, marks_cons, placeAfter_eq]
  exact if_neg fun hand => by simp [h] at hand

theorem marksAfter_bracket (h : isBracket c = true) :
    marksAfter .code before (c :: cs) =
      ⟨c, lineAfter before, columnAfter before⟩ :: marksAfter .code (before ++ [c]) cs := by
  have hbreak : c ≠ '\n' := by
    rintro rfl
    cases h
  have hslash : c ≠ '/' := by
    rintro rfl
    cases h
  have hnext : Region.next .code c cs.head? = .code := by simp [Region.next, hslash]
  have hplace : placeAfter (lineAfter before) (sinceBreak before) c =
      (lineAfter before, columnAfter before) := if_neg hbreak
  obtain ⟨hline, hcolumn⟩ := Prod.mk.inj (hplace.symm.trans (placeAfter_eq before c))
  rw [marksAfter, marks_cons, hplace, hnext, marksAfter, ← hline, ← hcolumn]
  exact if_pos ⟨rfl, h⟩

end

/-! ## Comments -/

/-- The rest of a block comment behind its opening: up to the first star with a slash behind it, or
to the end of the text. -/
def blockRest : List Char → List Char
  | [] => []
  | '*' :: '/' :: _ => ['*', '/']
  | c :: cs => c :: blockRest cs

/-- The brackets of a text outside its comments, given all that stands before it. A line comment
ends before its line break. -/
def bracketsOutside (before : List Char) : List Char → List Mark
  | [] => []
  | '/' :: '/' :: cs =>
    bracketsOutside (before ++ '/' :: '/' :: cs.takeWhile (· ≠ '\n')) (cs.dropWhile (· ≠ '\n'))
  | '/' :: '*' :: cs =>
    bracketsOutside (before ++ '/' :: '*' :: blockRest cs) (cs.drop (blockRest cs).length)
  | c :: cs =>
    let others := bracketsOutside (before ++ [c]) cs
    if isBracket c then ⟨c, lineAfter before, columnAfter before⟩ :: others else others
termination_by cs => cs.length
decreasing_by
  · have := (List.dropWhile_sublist (fun c => decide (c ≠ '\n')) (l := cs)).length_le
    simp only [List.length_cons]
    omega
  · simp only [List.length_cons, List.length_drop]
    omega
  · simp

section

variable (before : List Char) {cs : List Char}

/-- A line comment has no line break in it. -/
theorem marksAfter_line {body : List Char} (h : '\n' ∉ body) (rest : List Char) :
    marksAfter .lineComment before (body ++ rest) =
      marksAfter .lineComment (before ++ body) rest := by
  induction body generalizing before with
  | nil => simp
  | cons c body ih =>
    rw [List.mem_cons, not_or] at h
    have hnext : Region.next .lineComment c (body ++ rest).head? = .lineComment :=
      if_neg (Ne.symm h.1)
    rw [List.cons_append, marksAfter_comment before (by simp), hnext, ih _ h.2, List.append_assoc,
      List.singleton_append]

/-- The code begins again with the line break. -/
theorem marksAfter_break (h : ∀ c ∈ cs.head?, c = '\n') :
    marksAfter .lineComment before cs = marksAfter .code before cs := by
  cases cs with
  | nil => rfl
  | cons c cs =>
    obtain rfl : c = '\n' := h c rfl
    rw [marksAfter_comment before (by simp), marksAfter_plain before (by decide)]
    rfl

theorem marksAfter_lineComment :
    marksAfter .code before ('/' :: '/' :: cs) =
      marksAfter .code (before ++ '/' :: '/' :: cs.takeWhile (· ≠ '\n'))
        (cs.dropWhile (· ≠ '\n')) := by
  have hbody : '\n' ∉ cs.takeWhile (· ≠ '\n') := fun hmem => by
    simpa using List.mem_takeWhile_imp hmem
  have hbreak : ∀ c ∈ (cs.dropWhile (· ≠ '\n')).head?, c = '\n' := by
    intro c hc
    have hhead := List.head?_dropWhile_not (fun x => decide (x ≠ '\n')) cs
    rw [Option.mem_def.mp hc] at hhead
    simpa using hhead
  have hopen : marksAfter .code before ('/' :: '/' :: cs) =
      marksAfter .lineComment before ('/' :: '/' :: cs) := by
    rw [marksAfter_plain before (by decide), marksAfter_comment before (by simp)]
    rfl
  have hsplit : '/' :: '/' :: cs =
      ('/' :: '/' :: cs.takeWhile (· ≠ '\n')) ++ cs.dropWhile (· ≠ '\n') := by simp
  rw [hopen, hsplit, marksAfter_line before (by simpa using hbody), marksAfter_break _ hbreak]

/-- A block comment goes on to its first end, as long as its first character is not the slash of
one. -/
theorem marksAfter_block {previous : Char} (h : ¬ (previous = '*' ∧ cs.head? = some '/')) :
    marksAfter (.blockComment previous) before cs =
      marksAfter .code (before ++ blockRest cs) (cs.drop (blockRest cs).length) := by
  fun_induction blockRest cs generalizing before previous with
  | case1 => rfl
  | case2 cs =>
    rw [marksAfter_comment before (by simp), marksAfter_comment _ (by simp [Region.next])]
    simp [Region.next]
  | case3 c cs hend ih =>
    have hnext : Region.next (.blockComment previous) c cs.head? = .blockComment c := by
      refine if_neg fun hand => h ⟨hand.1, ?_⟩
      rw [hand.2]
      rfl
    have hopen : ¬ (c = '*' ∧ cs.head? = some '/') := by
      rintro ⟨hc, hhead⟩
      obtain ⟨tail, htail⟩ := List.head?_eq_some_iff.mp hhead
      exact hend tail hc htail
    rw [marksAfter_comment before (by simp), hnext, ih _ hopen]
    simp

theorem marksAfter_blockComment :
    marksAfter .code before ('/' :: '*' :: cs) =
      marksAfter .code (before ++ '/' :: '*' :: blockRest cs) (cs.drop (blockRest cs).length) := by
  rw [marksAfter_plain before (by decide), marksAfter_plain _ (by decide)]
  have hblock := @marksAfter_block (before ++ ['/'] ++ ['*']) cs ' ' (by simp)
  simpa [Region.next] using hblock

end

theorem marksAfter_eq (before cs : List Char) :
    marksAfter .code before cs = bracketsOutside before cs := by
  fun_induction bracketsOutside before cs with
  | case1 => rfl
  | case2 before cs ih => rw [marksAfter_lineComment, ih]
  | case3 before cs ih => rw [marksAfter_blockComment, ih]
  | case4 before c cs hline hblock others hbracket ih => rw [marksAfter_bracket before hbracket, ih]
  | case5 before c cs hline hblock others hbracket ih =>
    have hnext : Region.next .code c cs.head? = .code := by
      rw [Region.next, if_neg, if_neg]
      · rintro ⟨hc, hhead⟩
        obtain ⟨tail, htail⟩ := List.head?_eq_some_iff.mp hhead
        exact hblock tail hc htail
      · rintro ⟨hc, hhead⟩
        obtain ⟨tail, htail⟩ := List.head?_eq_some_iff.mp hhead
        exact hline tail hc htail
    rw [marksAfter_plain before (by simpa using hbracket), hnext, ih]

/-- A bracket stands in a text, at the place that follows from all that is before it. -/
def PlacedIn (before cs : List Char) (m : Mark) : Prop :=
  ∃ between after, cs = between ++ m.bracket :: after ∧ m.line = lineAfter (before ++ between) ∧
    m.column = columnAfter (before ++ between)

theorem PlacedIn.append {before skipped cs : List Char} {m : Mark}
    (h : PlacedIn (before ++ skipped) cs m) : PlacedIn before (skipped ++ cs) m := by
  obtain ⟨between, after, rfl, hplace⟩ := h
  exact ⟨skipped ++ between, after, by simp, by simpa using hplace⟩

theorem blockRest_append_drop (cs : List Char) :
    blockRest cs ++ cs.drop (blockRest cs).length = cs := by
  fun_induction blockRest cs with
  | case1 => rfl
  | case2 => rfl
  | case3 c cs _ ih => rw [List.cons_append, List.length_cons, List.drop_succ_cons, ih]

theorem placedIn_of_mem {before cs : List Char} {m : Mark} (h : m ∈ bracketsOutside before cs) :
    PlacedIn before cs m := by
  fun_induction bracketsOutside before cs with
  | case1 => cases h
  | case2 before cs ih => simpa using (ih h).append
  | case3 before cs ih => simpa [blockRest_append_drop] using (ih h).append
  | case4 before c cs hline hblock others hbracket ih =>
    rcases List.mem_cons.mp h with rfl | h
    · exact ⟨[], cs, rfl, by simp, by simp⟩
    · exact (ih h).append
  | case5 before c cs hline hblock others hbracket ih => exact (ih h).append

/-! ## Nested brackets -/

/-- Brackets in which every one has its partner, with nested brackets between the two. -/
inductive Nested : List Mark → Prop
  | nil : Nested []
  | pair {opener closer : Mark} {inner rest : List Mark} (hopener : isOpener opener.bracket = true)
    (hcloser : closer.bracket = closerOf opener.bracket) (hinner : Nested inner)
    (hrest : Nested rest) : Nested (opener :: (inner ++ closer :: rest))

/-- Brackets in which every closing one has its partner, and the opening ones that have none, the
innermost first. -/
inductive Opened : List Mark → List Mark → Prop
  | nested {ms : List Mark} (h : Nested ms) : Opened ms []
  | opener {outer inner unclosed : List Mark} {m : Mark} (houter : Opened outer unclosed)
    (hopener : isOpener m.bracket = true) (hinner : Nested inner) :
    Opened (outer ++ m :: inner) (m :: unclosed)

theorem isOpener_closerOf (c : Char) : isOpener (closerOf c) = false := by
  unfold closerOf
  split <;> decide

theorem Nested.append {ms ns : List Mark} (hm : Nested ms) (hn : Nested ns) : Nested (ms ++ ns) := by
  induction hm with
  | nil => exact hn
  | pair hopener hcloser hinner _ _ ih =>
    rw [List.cons_append, List.append_assoc, List.cons_append]
    exact .pair hopener hcloser hinner ih

theorem Opened.append {ms ns unclosed : List Mark} (hm : Opened ms unclosed) (hn : Nested ns) :
    Opened (ms ++ ns) unclosed := by
  cases hm with
  | nested h => exact .nested (h.append hn)
  | opener houter hopener hinner =>
    rw [List.append_assoc, List.cons_append]
    exact .opener houter hopener (hinner.append hn)

theorem opened_nil_iff {ms : List Mark} : Opened ms [] ↔ Nested ms := by
  refine ⟨fun h => ?_, .nested⟩
  cases h with
  | nested h => exact h

/-! ## One bracket after the other -/

section

variable {m innermost : Mark} {unclosed ms : List Mark}

theorem nestingFault?_opener (h : isOpener m.bracket = true) :
    nestingFault? unclosed (m :: ms) = nestingFault? (m :: unclosed) ms := by
  simp [nestingFault?, h]

theorem nestingFault?_closer (hmatch : m.bracket = closerOf innermost.bracket) :
    nestingFault? (innermost :: unclosed) (m :: ms) = nestingFault? unclosed ms := by
  simp [nestingFault?, hmatch, isOpener_closerOf]

theorem nestingFault?_unmatched (h : isOpener m.bracket = false) :
    nestingFault? [] (m :: ms) = some (.unmatched m) := by
  simp [nestingFault?, h]

theorem nestingFault?_mismatched (h : isOpener m.bracket = false)
    (hmatch : m.bracket ≠ closerOf innermost.bracket) :
    nestingFault? (innermost :: unclosed) (m :: ms) =
      some (.mismatched m (closerOf innermost.bracket)) := by
  simp [nestingFault?, h, hmatch]

end

/-- Nested brackets leave the open ones as they are. -/
theorem Nested.nestingFault?_append {ms : List Mark} (h : Nested ms) (unclosed rest : List Mark) :
    nestingFault? unclosed (ms ++ rest) = nestingFault? unclosed rest := by
  induction h generalizing unclosed rest with
  | nil => rfl
  | @pair opener closer inner others hopener hcloser _ _ ihinner ihrest =>
    rw [List.cons_append, List.append_assoc, List.cons_append, nestingFault?_opener hopener,
      ihinner, nestingFault?_closer hcloser, ihrest]

theorem Opened.nestingFault?_append {ms unclosed : List Mark} (h : Opened ms unclosed)
    (rest : List Mark) : nestingFault? [] (ms ++ rest) = nestingFault? unclosed rest := by
  induction h generalizing rest with
  | nested h => exact h.nestingFault?_append [] rest
  | opener _ hopener hinner ih =>
    rw [List.append_assoc, List.cons_append, ih, nestingFault?_opener hopener,
      hinner.nestingFault?_append]

/-- What is found in a list of brackets, by what is open where it is found. -/
inductive Verdict : List Mark → Option BracketFault → Prop
  | nested {ms : List Mark} (h : Nested ms) : Verdict ms none
  | unmatched {before after : List Mark} {m : Mark} (h : Nested before)
    (hm : isOpener m.bracket = false) : Verdict (before ++ m :: after) (some (.unmatched m))
  | mismatched {before after outer : List Mark} {m innermost : Mark}
    (h : Opened before (innermost :: outer)) (hm : isOpener m.bracket = false)
    (hmatch : m.bracket ≠ closerOf innermost.bracket) :
    Verdict (before ++ m :: after) (some (.mismatched m (closerOf innermost.bracket)))
  | unclosed {ms outer : List Mark} {m : Mark} (h : Opened ms (m :: outer)) :
    Verdict ms (some (.unclosed m))

theorem Verdict.eq_nestingFault? {ms : List Mark} {fault : Option BracketFault}
    (h : Verdict ms fault) : nestingFault? [] ms = fault := by
  cases h with
  | nested h => simpa [nestingFault?] using h.nestingFault?_append [] []
  | unmatched h hm => rw [h.nestingFault?_append, nestingFault?_unmatched hm]
  | mismatched h hm hmatch => rw [h.nestingFault?_append, nestingFault?_mismatched hm hmatch]
  | unclosed h => simpa [nestingFault?] using h.nestingFault?_append []

/-- One more bracket is opened, has its partner, or is at fault. -/
theorem Opened.concat {ms unclosed : List Mark} (h : Opened ms unclosed) (m : Mark) :
    (∃ next, Opened (ms ++ [m]) next) ∨
      ∃ fault, ∀ after, Verdict (ms ++ m :: after) (some fault) := by
  cases hm : isOpener m.bracket with
  | true => exact .inl ⟨m :: unclosed, .opener h hm .nil⟩
  | false =>
    cases h with
    | nested hnested => exact .inr ⟨_, fun after => .unmatched hnested hm⟩
    | @opener outer inner rest innermost houter hopener hinner =>
      by_cases hmatch : m.bracket = closerOf innermost.bracket
      · have hpair : Nested (innermost :: (inner ++ m :: [])) := .pair hopener hmatch hinner .nil
        refine .inl ⟨rest, ?_⟩
        rw [List.append_assoc]
        exact houter.append hpair
      · exact .inr ⟨_, fun after => .mismatched (.opener houter hopener hinner) hm hmatch⟩

theorem exists_verdict (ms : List Mark) : ∃ fault, Verdict ms fault := by
  have hopened (before after : List Mark) :
      (∃ unclosed, Opened before unclosed) ∨ ∃ fault, Verdict (before ++ after) fault := by
    induction before using List.reverseRecOn generalizing after with
    | nil => exact .inl ⟨[], .nested .nil⟩
    | append_singleton before m ih =>
      rw [List.append_assoc, List.singleton_append]
      rcases ih (m :: after) with ⟨unclosed, h⟩ | hverdict
      · exact (h.concat m).imp_right fun ⟨fault, hfault⟩ => ⟨_, hfault after⟩
      · exact .inr hverdict
  rcases hopened ms [] with ⟨unclosed, h⟩ | hverdict
  · cases unclosed with
    | nil => exact ⟨none, .nested (opened_nil_iff.mp h)⟩
    | cons m outer => exact ⟨_, .unclosed h⟩
  · rwa [List.append_nil] at hverdict

theorem nestingFault?_eq_iff {ms : List Mark} {fault : Option BracketFault} :
    nestingFault? [] ms = fault ↔ Verdict ms fault := by
  refine ⟨?_, Verdict.eq_nestingFault?⟩
  rintro rfl
  obtain ⟨fault, h⟩ := exists_verdict ms
  rwa [h.eq_nestingFault?]

section

variable {ms : List Mark} {m : Mark}

theorem verdict_none_iff : Verdict ms none ↔ Nested ms := by
  refine ⟨fun h => ?_, .nested⟩
  cases h with
  | nested h => exact h

theorem verdict_unmatched_iff :
    Verdict ms (some (.unmatched m)) ↔
      ∃ before after, ms = before ++ m :: after ∧ Nested before ∧ isOpener m.bracket = false := by
  constructor
  · intro h
    cases h with
    | @unmatched before after _ h hm => exact ⟨before, after, rfl, h, hm⟩
  · rintro ⟨before, after, rfl, h, hm⟩
    exact .unmatched h hm

theorem verdict_mismatched_iff {expected : Char} :
    Verdict ms (some (.mismatched m expected)) ↔
      ∃ before after innermost outer, ms = before ++ m :: after ∧
        Opened before (innermost :: outer) ∧ isOpener m.bracket = false ∧
        closerOf innermost.bracket = expected ∧ m.bracket ≠ expected := by
  constructor
  · intro h
    cases h with
    | @mismatched before after outer _ innermost h hm hmatch =>
      exact ⟨before, after, innermost, outer, rfl, h, hm, rfl, hmatch⟩
  · rintro ⟨before, after, innermost, outer, rfl, h, hm, rfl, hmatch⟩
    exact .mismatched h hm hmatch

theorem verdict_unclosed_iff :
    Verdict ms (some (.unclosed m)) ↔ ∃ outer, Opened ms (m :: outer) := by
  refine ⟨fun h => ?_, fun ⟨outer, h⟩ => .unclosed h⟩
  cases h with
  | @unclosed _ outer _ h => exact ⟨outer, h⟩

end

/-- The check of a text finds no fault exactly if the brackets outside comments are nested.
Otherwise it finds the first closing bracket that has no partner, unmatched where no bracket is open
and mismatched where the innermost open one expects another, or, if there is none, the innermost
bracket that is left open. Brackets are named with their places in the text. -/
theorem bracketFault?_exact (text : String) :
    let brackets := bracketsOutside [] text.toList
    (∀ m ∈ brackets, ∃ before after, text.toList = before ++ m.bracket :: after ∧
      m.line = lineAfter before ∧ m.column = columnAfter before) ∧
    (bracketFault? text = none ↔ Nested brackets) ∧
    (∀ m, bracketFault? text = some (.unmatched m) ↔
      ∃ before after, brackets = before ++ m :: after ∧ Nested before ∧
        isOpener m.bracket = false) ∧
    (∀ m expected, bracketFault? text = some (.mismatched m expected) ↔
      ∃ before after innermost outer, brackets = before ++ m :: after ∧
        Opened before (innermost :: outer) ∧ isOpener m.bracket = false ∧
        closerOf innermost.bracket = expected ∧ m.bracket ≠ expected) ∧
    ∀ m, bracketFault? text = some (.unclosed m) ↔ ∃ outer, Opened brackets (m :: outer) := by
  intro brackets
  have hfault (fault : Option BracketFault) :
      bracketFault? text = fault ↔ Verdict brackets fault := by
    have hmarks : marks .code 1 0 text.toList = brackets := marksAfter_eq [] text.toList
    rw [bracketFault?, hmarks, nestingFault?_eq_iff]
  refine ⟨fun m hm => placedIn_of_mem hm, ?_, fun m => ?_, fun m expected => ?_, fun m => ?_⟩
  · rw [hfault, verdict_none_iff]
  · rw [hfault, verdict_unmatched_iff]
  · rw [hfault, verdict_mismatched_iff]
  · rw [hfault, verdict_unclosed_iff]

-- a comment is not closed by the slash of its opening, and the first end counts
example : bracketsOutside [] "/*/ ( **/ [\n// )\n/* \x7b".toList = [⟨'[', 1, 11⟩] := by decide +kernel

end NodeShader.Glsl
