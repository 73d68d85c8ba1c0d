import Mathlib.Data.List.Chain
import NodeShader.Proofs.Naming

/-!
# The form of stems

The stem of an id is `v_` and runs of letters and digits with a single underscore between them
(`IsStem`), and so is a stem with a number after it (`isStem_stemCandidate`).

* `stems_normalized`: what the stem of an id is, and the form of the stems that nodes get.
-/

namespace NodeShader

/-! ## Stems -/

/-- Runs with a single underscore between them, at least one. -/
inductive IsWords : List Char → Prop where
  | last {run : List Char} (h : IsRun run) : IsWords run
  | cons {run rest : List Char} (h : IsRun run) (hrest : IsWords rest) :
    IsWords (run ++ '_' :: rest)

/-- `v_` and runs with a single underscore between them. -/
def IsStem (name : String) : Prop := ∃ words, IsWords words ∧ name.toList = 'v' :: '_' :: words

theorem IsWords.append {words more : List Char} (h : IsWords words) (hmore : IsWords more) :
    IsWords (words ++ '_' :: more) := by
  induction h with
  | last hrun => exact .cons hrun hmore
  | cons hrun _ ih =>
    rw [List.append_assoc]
    exact .cons hrun ih

theorem isWords_intercalate {run : List Char} {runs : List (List Char)}
    (h : ∀ r ∈ run :: runs, IsRun r) : IsWords (['_'].intercalate (run :: runs)) := by
  induction runs generalizing run with
  | nil => simpa using IsWords.last (h run List.mem_cons_self)
  | cons next runs ih =>
    obtain ⟨hrun, hruns⟩ := List.forall_mem_cons.mp h
    rw [List.intercalate_cons_cons, List.append_assoc]
    exact .cons hrun (ih hruns)

theorem isStem_variableStem (id : String) : IsStem (variableStem id) := by
  obtain ⟨runs, hmaximal⟩ := exists_maximalRuns id.toList
  have hruns : ∀ run ∈ runs, IsRun run := hmaximal.isRun
  rw [variableStem_eq hmaximal]
  cases runs with
  | nil => exact ⟨"node".toList, .last ⟨by decide, List.all_eq_true.mp (by decide)⟩, rfl⟩
  | cons run runs =>
    refine ⟨_, isWords_intercalate hruns, ?_⟩
    have hlists : ((run :: runs).map String.ofList).map String.toList = run :: runs := by simp
    rw [if_neg (List.cons_ne_nil run runs), String.toList_append, String.toList_intercalate, hlists]
    rfl

theorem isRun_toString (n : Nat) : IsRun (toString n).toList := by
  rw [Nat.toString_eq_ofList_toDigits, String.toList_ofList]
  refine ⟨Nat.toDigits_ne_nil, fun c hc => ?_⟩
  have hdigit : c.isDigit = true := Nat.isDigit_of_mem_toDigits (by decide) (by decide) hc
  rw [Char.isAlphanum, hdigit, Bool.or_true]

theorem isStem_stemCandidate {base : String} (h : IsStem base) (n : Nat) :
    IsStem (stemCandidate base n) := by
  rw [stemCandidate]
  split
  · exact h
  · obtain ⟨words, hwords, heq⟩ := h
    refine ⟨_, hwords.append (.last (isRun_toString (n + 1))), ?_⟩
    rw [String.toList_append, String.toList_append, heq]
    simp

theorem Graph.isStem_stems (r : Registry) (g : Graph) (id : String) :
    IsStem ((g.stems r).get id) := by
  obtain ⟨n, hn⟩ := g.exists_stemCandidate r id
  rw [hn]
  exact isStem_stemCandidate (isStem_variableStem id) n

/-! ## The characters of stems -/

theorem ne_underscore_of_isAlphanum {c : Char} (h : c.isAlphanum = true) : c ≠ '_' := by
  rintro rfl
  exact absurd h (by decide)

theorem toNat_lt_of_isAlphanum {c : Char} (h : c.isAlphanum = true) : c.toNat < 128 := by
  have hbelow {last : Char} (hlast : last.toNat < 128) (hc : c.val ≤ last.val) : c.toNat < 128 :=
    Nat.lt_of_le_of_lt (UInt32.le_iff_toNat_le.mp hc) hlast
  rcases Bool.or_eq_true_iff.mp h with halpha | hdigit
  · rcases Bool.or_eq_true_iff.mp halpha with hupper | hlower
    · have hrange : c.val ≥ 'A'.val ∧ c.val ≤ 'Z'.val := of_decide_eq_true hupper
      exact hbelow (by decide) hrange.2
    · have hrange : c.val ≤ 'z'.val := of_decide_eq_true (Bool.and_eq_true_iff.mp hlower).2
      exact hbelow (by decide) hrange
  · have hrange : c.val ≤ '9'.val := of_decide_eq_true (Bool.and_eq_true_iff.mp hdigit).2
    exact hbelow (by decide) hrange

theorem IsWords.ne_nil {words : List Char} (h : IsWords words) : words ≠ [] := by
  cases h with
  | last h => exact h.1
  | cons h _ => exact List.append_ne_nil_of_left_ne_nil h.1 _

theorem IsWords.isAlphanum_head {words : List Char} (h : IsWords words) :
    ∀ c ∈ words.head?, c.isAlphanum = true := by
  cases h with
  | last hrun => exact fun c hc => hrun.2 c (List.mem_of_mem_head? hc)
  | cons hrun _ =>
    rw [List.head?_append_of_ne_nil _ hrun.1]
    exact fun c hc => hrun.2 c (List.mem_of_mem_head? hc)

theorem IsWords.isAlphanum_getLast {words : List Char} (h : IsWords words) :
    ∀ c ∈ words.getLast?, c.isAlphanum = true := by
  induction h with
  | last hrun => exact fun c hc => hrun.2 c (List.mem_of_mem_getLast? hc)
  | @cons run rest _ hrest ih =>
    rw [← List.singleton_append, ← List.append_assoc, List.getLast?_append_of_ne_nil _ hrest.ne_nil]
    exact ih

theorem IsWords.isAlphanum_or {words : List Char} (h : IsWords words) :
    ∀ c ∈ words, c.isAlphanum = true ∨ c = '_' := by
  induction h with
  | last hrun => exact fun c hc => .inl (hrun.2 c hc)
  | cons hrun _ ih =>
    intro c hc
    rcases List.mem_append.mp hc with hc | hc
    · exact .inl (hrun.2 c hc)
    · rcases List.mem_cons.mp hc with hc | hc
      · exact .inr hc
      · exact ih c hc

/-- Of two neighbours in a list of words at most one is an underscore. -/
theorem IsWords.isChain {words : List Char} (h : IsWords words) :
    words.IsChain (fun a b => a ≠ '_' ∨ b ≠ '_') := by
  have hapart {run : List Char} (hrun : IsRun run) :
      run.IsChain (fun a b => a ≠ '_' ∨ b ≠ '_') := by
    refine List.isChain_iff_forall_rel_of_append_cons_cons.mpr fun a b before after heq => ?_
    exact .inl (ne_underscore_of_isAlphanum (hrun.2 a (by simp [heq])))
  induction h with
  | last hrun => exact hapart hrun
  | cons hrun hrest ih =>
    refine List.isChain_append.mpr ⟨hapart hrun, List.isChain_cons.mpr ⟨fun c hc => ?_, ih⟩, ?_⟩
    · exact .inr (ne_underscore_of_isAlphanum (hrest.isAlphanum_head c hc))
    · intro c hc _ _
      exact .inl (ne_underscore_of_isAlphanum (hrun.2 c (List.mem_of_mem_getLast? hc)))

/-- A stem has no two underscores in a row and none at its end, and is all ASCII. -/
theorem IsStem.characters {name : String} (h : IsStem name) :
    ¬ ['_', '_'] <:+: name.toList ∧ name.toList.getLast? ≠ some '_' ∧
      ∀ c ∈ name.toList, c.toNat < 128 := by
  obtain ⟨words, hwords, heq⟩ := h
  rw [heq]
  refine ⟨fun ⟨before, after, hdouble⟩ => ?_, fun hlast => ?_, ?_⟩
  · have hchain : ('v' :: '_' :: words).IsChain (fun a b => a ≠ '_' ∨ b ≠ '_') := by
      have hhead : ∀ c ∈ words.head?, '_' ≠ '_' ∨ c ≠ '_' :=
        fun c hc => .inr (ne_underscore_of_isAlphanum (hwords.isAlphanum_head c hc))
      exact .cons_cons (.inl (by decide)) (List.isChain_cons.mpr ⟨hhead, hwords.isChain⟩)
    rw [List.append_assoc] at hdouble
    have hpair := List.isChain_iff_forall_rel_of_append_cons_cons.mp hchain hdouble.symm
    simp at hpair
  · have hsplit : 'v' :: '_' :: words = ['v', '_'] ++ words := rfl
    rw [hsplit, List.getLast?_append_of_ne_nil _ hwords.ne_nil] at hlast
    exact ne_underscore_of_isAlphanum (hwords.isAlphanum_getLast _ hlast) rfl
  · have hascii : ∀ c ∈ words, c.toNat < 128 := by
      intro c hc
      rcases hwords.isAlphanum_or c hc with hc | rfl
      · exact toNat_lt_of_isAlphanum hc
      · decide
    exact List.forall_mem_cons.mpr ⟨by decide, List.forall_mem_cons.mpr ⟨by decide, hascii⟩⟩

/-- The stem of an id is `v_` and the maximal runs of letters and digits in the id, in order and
with single underscores between them, or `v_node` if there is no run. It has the form of
stems, which the numbers that are tried after it keep; so every node of a graph has a stem of this
form. No such name has two underscores in a row, an underscore at its end or a character beyond
ASCII. -/
theorem stems_normalized :
    (∀ id : String, (∃! runs, MaximalRuns id.toList runs) ∧
      ∀ runs, MaximalRuns id.toList runs →
        variableStem id = if runs = [] then "v_node"
          else "v_" ++ "_".intercalate (runs.map String.ofList)) ∧
    (∀ id, IsStem (variableStem id)) ∧
    (∀ type base claimed, IsStem base → IsStem (freeStem type base claimed)) ∧
    (∀ (r : Registry) (g : Graph) id, IsStem ((g.stems r).get id)) ∧
    ∀ name, IsStem name → ¬ ['_', '_'] <:+: name.toList ∧ name.toList.getLast? ≠ some '_' ∧
      ∀ c ∈ name.toList, c.toNat < 128 := by
  refine ⟨fun id => ⟨?_, fun runs h => ?_⟩, isStem_variableStem, fun type base claimed h => ?_,
    Graph.isStem_stems, fun name => IsStem.characters⟩
  · exact ⟨_, maximalRuns_iff.mpr rfl, fun runs h => maximalRuns_iff.mp h⟩
  · exact variableStem_eq h
  · obtain ⟨n, hn⟩ := exists_firstFree _ base _ 0
    rw [freeStem, hn]
    exact isStem_stemCandidate h n

/-- Other characters at both ends and between the runs, one of them beyond ASCII. -/
theorem accented_variableStem :
    MaximalRuns "_é--a9 b__".toList [['a', '9'], ['b']] ∧ variableStem "_é--a9 b__" = "v_a9_b" ∧
      IsStem (freeStem none "v_a9_b" ["v_a9_b", "v_a9_b_2"]) ∧
      ¬ ['_', '_'] <:+: (variableStem "_é--a9 b__").toList := by
  obtain ⟨hruns, hform, hnumber, -, hcharacters⟩ := stems_normalized
  have hgap {cs : List Char} (h : cs.all (fun c => !c.isAlphanum) = true) :
      ∀ c ∈ cs, c.isAlphanum = false := by simpa using h
  have hrun {cs : List Char} (hne : cs ≠ []) (h : cs.all Char.isAlphanum = true) : IsRun cs :=
    ⟨hne, List.all_eq_true.mp h⟩
  have hsplit : MaximalRuns "_é--a9 b__".toList [['a', '9'], ['b']] :=
    @MaximalRuns.run ['_', 'é', '-', '-'] ['a', '9'] [' ', 'b', '_', '_'] _ (hgap (by decide))
      (hrun (by decide) (by decide)) (by simp)
      (@MaximalRuns.run [' '] ['b'] ['_', '_'] _ (hgap (by decide)) (hrun (by decide) (by decide))
        (by simp) (.none (hgap (by decide))))
  have hstem : variableStem "_é--a9 b__" = "v_a9_b" := (hruns _).2 _ hsplit
  refine ⟨hsplit, hstem, hnumber _ _ _ ?_, (hcharacters _ (hform _)).1⟩
  exact hstem ▸ hform _

end NodeShader
