import NodeShader.Shader.Naming

/-!
# Runs of letters and digits

The maximal runs of letters and digits in a text (`MaximalRuns`) are what is left when the text is
split at all other characters (`maximalRuns_iff`). A stem is written character by character. The
characters of a gap between runs leave the text as it is (`foldl_push_gap`), and a run is appended
after at most one underscore (`foldl_push_run`); so the stem of an id is made from the maximal runs
in it (`variableStem_eq`).
-/

namespace NodeShader

/-! ## Runs -/

/-- Letters and digits of ASCII, at least one. -/
def IsRun (cs : List Char) : Prop := cs ≠ [] ∧ ∀ c ∈ cs, c.isAlphanum = true

/-- The maximal runs of letters and digits in a text, in order. Before each of them and after the
last there are only other characters, and a run ends where the text ends or such a character
stands. -/
inductive MaximalRuns : List Char → List (List Char) → Prop where
  | none {gap : List Char} (hgap : ∀ c ∈ gap, c.isAlphanum = false) : MaximalRuns gap []
  | run {gap run rest : List Char} {runs : List (List Char)}
    (hgap : ∀ c ∈ gap, c.isAlphanum = false) (hrun : IsRun run)
    (hend : ∀ c ∈ rest.head?, c.isAlphanum = false) (hrest : MaximalRuns rest runs) :
    MaximalRuns (gap ++ run ++ rest) (run :: runs)

theorem MaximalRuns.isRun {cs : List Char} {runs : List (List Char)} (h : MaximalRuns cs runs) :
    ∀ run ∈ runs, IsRun run := by
  induction h with
  | none => simp
  | run _ hrun _ _ ih => exact List.forall_mem_cons.mpr ⟨hrun, ih⟩

/-- The parts of a text between characters that are neither letters nor digits. -/
def alphanumericRuns (cs : List Char) : List (List Char) :=
  (cs.splitOnP (fun c => !c.isAlphanum)).filter (fun run => !run.isEmpty)

theorem alphanumericRuns_append_cons {c : Char} (hc : c.isAlphanum = false)
    (before after : List Char) :
    alphanumericRuns (before ++ c :: after) =
      alphanumericRuns before ++ alphanumericRuns after := by
  rw [alphanumericRuns, List.splitOnP_append_cons before after (by simp [hc]), List.filter_append]
  rfl

theorem alphanumericRuns_gap_append {gap : List Char} (hgap : ∀ c ∈ gap, c.isAlphanum = false)
    (cs : List Char) : alphanumericRuns (gap ++ cs) = alphanumericRuns cs := by
  induction gap with
  | nil => rfl
  | cons c gap ih =>
    obtain ⟨hc, hgap⟩ := List.forall_mem_cons.mp hgap
    exact (alphanumericRuns_append_cons hc [] (gap ++ cs)).trans (ih hgap)

theorem alphanumericRuns_run {run : List Char} (h : IsRun run) : alphanumericRuns run = [run] := by
  rw [alphanumericRuns, List.splitOnP_eq_singleton fun c hc => by simp [h.2 c hc]]
  simp [h.1]

theorem alphanumericRuns_run_append {run rest : List Char} (h : IsRun run)
    (hend : ∀ c ∈ rest.head?, c.isAlphanum = false) :
    alphanumericRuns (run ++ rest) = run :: alphanumericRuns rest := by
  cases rest with
  | nil =>
    rw [List.append_nil, alphanumericRuns_run h]
    rfl
  | cons c rest =>
    have hc := hend c rfl
    have hskip : alphanumericRuns ([c] ++ rest) = alphanumericRuns rest :=
      alphanumericRuns_gap_append (by simpa using hc) rest
    rw [alphanumericRuns_append_cons hc, alphanumericRuns_run h, ← hskip]
    rfl

theorem MaximalRuns.eq_alphanumericRuns {cs : List Char} {runs : List (List Char)}
    (h : MaximalRuns cs runs) : runs = alphanumericRuns cs := by
  induction h with
  | @none gap hgap =>
    rw [← List.append_nil gap, alphanumericRuns_gap_append hgap]
    rfl
  | run hgap hrun hend _ ih =>
    rw [List.append_assoc, alphanumericRuns_gap_append hgap, alphanumericRuns_run_append hrun hend,
      ih]

theorem exists_maximalRuns (cs : List Char) : ∃ runs, MaximalRuns cs runs := by
  induction cs with
  | nil => exact ⟨[], .none (by simp)⟩
  | cons c cs ih =>
    obtain ⟨runs, h⟩ := ih
    cases hc : c.isAlphanum with
    | false =>
      -- the character belongs to the gap in front
      cases h with
      | none hgap => exact ⟨[], .none (List.forall_mem_cons.mpr ⟨hc, hgap⟩)⟩
      | run hgap hrun hend hrest =>
        exact ⟨_, .run (List.forall_mem_cons.mpr ⟨hc, hgap⟩) hrun hend hrest⟩
    | true =>
      have hsingle : IsRun [c] := ⟨List.cons_ne_nil _ _, by simpa using hc⟩
      cases h with
      | none hgap =>
        refine ⟨_, @MaximalRuns.run [] [c] _ _ (by simp) hsingle (fun d hd => ?_) (.none hgap)⟩
        exact hgap d (List.mem_of_mem_head? hd)
      | @run gap run rest runs hgap hrun hend hrest =>
        cases gap with
        | nil =>
          -- it continues the first run to the left
          have hlonger : IsRun (c :: run) :=
            ⟨List.cons_ne_nil _ _, List.forall_mem_cons.mpr ⟨hc, hrun.2⟩⟩
          exact ⟨_, @MaximalRuns.run [] _ _ _ (by simp) hlonger hend hrest⟩
        | cons d gap =>
          have hd : d.isAlphanum = false := hgap d List.mem_cons_self
          exact ⟨_, @MaximalRuns.run [] [c] _ _ (by simp) hsingle (by simpa using hd)
            (.run hgap hrun hend hrest)⟩

/-- Splitting finds the maximal runs, and there are no others. -/
theorem maximalRuns_iff {cs : List Char} {runs : List (List Char)} :
    MaximalRuns cs runs ↔ runs = alphanumericRuns cs := by
  refine ⟨MaximalRuns.eq_alphanumericRuns, ?_⟩
  rintro rfl
  obtain ⟨runs, h⟩ := exists_maximalRuns cs
  exact h.eq_alphanumericRuns ▸ h

/-! ## Writing a stem -/

theorem foldl_push_gap {gap : List Char} (hgap : ∀ c ∈ gap, c.isAlphanum = false)
    (w : StemWriter) :
    gap.foldl StemWriter.push w = ⟨w.text, w.separator || !gap.isEmpty⟩ := by
  induction gap generalizing w with
  | nil => simp
  | cons c gap ih =>
    obtain ⟨hc, hgap⟩ := List.forall_mem_cons.mp hgap
    rw [List.foldl_cons, ih hgap, StemWriter.push, hc]
    simp

theorem push_of_isAlphanum {c : Char} (hc : c.isAlphanum = true) (w : StemWriter) :
    w.push c =
      ⟨(if w.separator && w.text.utf8ByteSize > 2 then w.text.push '_' else w.text).push c,
        false⟩ := by
  rw [StemWriter.push, if_pos hc]

theorem foldl_push_run {run : List Char} (h : IsRun run) (w : StemWriter) :
    run.foldl StemWriter.push w =
      ⟨(if w.separator && w.text.utf8ByteSize > 2 then w.text.push '_' else w.text) ++
        String.ofList run, false⟩ := by
  -- after the first character no separator is due
  have hrest (cs : List Char) (hcs : ∀ c ∈ cs, c.isAlphanum = true) (text : String) :
      cs.foldl StemWriter.push ⟨text, false⟩ = ⟨text ++ String.ofList cs, false⟩ := by
    induction cs generalizing text with
    | nil => simp
    | cons c cs ih =>
      obtain ⟨hc, hcs⟩ := List.forall_mem_cons.mp hcs
      rw [List.foldl_cons, push_of_isAlphanum hc, ih hcs]
      simp [← String.toList_inj]
  obtain ⟨hne, hrun⟩ := h
  cases run with
  | nil => exact absurd rfl hne
  | cons c cs =>
    obtain ⟨hc, hcs⟩ := List.forall_mem_cons.mp hrun
    rw [List.foldl_cons, push_of_isAlphanum hc, hrest cs hcs]
    simp [← String.toList_inj]

/-- Behind a run, every further run is written after an underscore. -/
theorem toList_foldl_push {cs : List Char} {runs : List (List Char)} (h : MaximalRuns cs runs)
    (w : StemWriter) (hbegun : 2 < w.text.utf8ByteSize)
    (hapart : w.separator = true ∨ ∀ c ∈ cs.head?, c.isAlphanum = false) :
    (cs.foldl StemWriter.push w).text.toList =
      w.text.toList ++ runs.flatMap (fun run => '_' :: run) := by
  induction h generalizing w with
  | none hgap => simp [foldl_push_gap hgap]
  | @run gap run rest runs hgap hrun hend hrest ih =>
    have hseparator : (w.separator || !gap.isEmpty) = true := by
      rcases hapart with hsep | hhead
      · rw [hsep, Bool.true_or]
      · cases gap with
        | cons => simp
        | nil =>
          -- without a gap the text would begin with the run
          obtain ⟨c, others, rfl⟩ := List.exists_cons_of_ne_nil hrun.1
          have hc := hhead c (by simp)
          rw [hrun.2 c List.mem_cons_self] at hc
          cases hc
    rw [List.foldl_append, List.foldl_append, foldl_push_gap hgap, foldl_push_run hrun]
    simp only [hseparator, hbegun, decide_true, Bool.and_self, if_true]
    rw [ih _ _ (.inr hend)]
    · simp
    · simp only [String.utf8ByteSize_append, String.utf8ByteSize_push]
      omega

theorem two_lt_utf8ByteSize {run : List Char} (h : IsRun run) :
    2 < ("v_" ++ String.ofList run).utf8ByteSize := by
  obtain ⟨c, others, rfl⟩ := List.exists_cons_of_ne_nil h.1
  have hpos : 0 < c.utf8Size := c.utf8Size_pos
  have hv : "v_".utf8ByteSize = 2 := rfl
  rw [String.utf8ByteSize_append, hv, String.ofList_cons, String.utf8ByteSize_append,
    String.utf8ByteSize_singleton]
  omega

theorem intercalate_underscore (run : List Char) (runs : List (List Char)) :
    "_".intercalate ((run :: runs).map String.ofList) =
      String.ofList run ++ String.ofList (runs.flatMap fun run => '_' :: run) := by
  induction runs generalizing run with
  | nil => simp
  | cons next runs ih =>
    rw [List.map_cons, List.map_cons, String.intercalate_cons_cons, ← List.map_cons, ih]
    simp [← String.toList_inj]

/-- The stem of an id is made from the maximal runs of letters and digits in it. -/
theorem variableStem_eq {id : String} {runs : List (List Char)} (h : MaximalRuns id.toList runs) :
    variableStem id = if runs = [] then "v_node"
      else "v_" ++ "_".intercalate (runs.map String.ofList) := by
  rw [variableStem]
  generalize id.toList = cs at h
  cases h with
  | none hgap =>
    rw [foldl_push_gap hgap]
    rfl
  | @run gap run rest runs hgap hrun hend hrest =>
    have hfirst : (gap ++ run).foldl StemWriter.push {} = ⟨"v_" ++ String.ofList run, false⟩ := by
      rw [List.foldl_append, foldl_push_gap hgap, foldl_push_run hrun]
      have hsmall : ¬ "v_".utf8ByteSize > 2 := by decide
      simp [hsmall]
    have htext : ((gap ++ run ++ rest).foldl StemWriter.push {}).text =
        "v_" ++ String.ofList run ++ String.ofList (runs.flatMap fun run => '_' :: run) := by
      rw [List.foldl_append, hfirst, ← String.toList_inj,
        toList_foldl_push hrest _ (two_lt_utf8ByteSize hrun) (.inr hend)]
      simp
    have hlong := two_lt_utf8ByteSize hrun
    rw [htext, if_neg (List.cons_ne_nil run runs), intercalate_underscore, ← String.append_assoc,
      if_neg]
    simp only [beq_iff_eq, String.utf8ByteSize_append] at hlong ⊢
    omega

end NodeShader
