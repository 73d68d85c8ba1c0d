import NodeShader.Proofs.Template

/-!
# Templates that are refused

A template is read in pieces: doubled braces, other characters, and placeholders. A text of such
pieces is `Readable`, and an `Offence` is what none of them can begin with. Reading goes through a
readable text whatever stands behind it (`Readable.parseFrom_append`), and stops at an offence
(`Offence.parseFrom_eq`). Each text is readable or has a readable part with an offence behind it
(`settled`), so that this offence is the first one and gives the error.

* `parse_eq_error_iff`: the error of a template comes from its first offence.
* `parse_error_first`: each kind of error in the words of the text.
-/

namespace NodeShader.Template

/-! ## Bytes -/

theorem byteLength_append (cs ds : List Char) :
    byteLength (cs ++ ds) = byteLength cs + byteLength ds := by
  induction cs with
  | nil => simp [byteLength]
  | cons c cs ih =>
    simp only [List.cons_append, byteLength, ih]
    omega

theorem byteLength_placeholder (name rest : List Char) :
    byteLength ('\x7b' :: (name ++ '\x7d' :: rest)) = byteLength name + 2 + byteLength rest := by
  have hopen : '\x7b'.utf8Size = 1 := rfl
  have hclose : '\x7d'.utf8Size = 1 := rfl
  simp only [byteLength, byteLength_append, hopen, hclose]
  omega

theorem utf8ByteSize_eq_byteLength (text : String) : text.utf8ByteSize = byteLength text.toList := by
  have hchars (cs : List Char) : (String.ofList cs).utf8ByteSize = byteLength cs := by
    induction cs with
    | nil => rfl
    | cons c cs ih =>
      have hcons : String.ofList (c :: cs) = String.singleton c ++ String.ofList cs := by simp
      rw [hcons, String.utf8ByteSize_append, String.utf8ByteSize_singleton, ih, byteLength]
  rw [← hchars, String.ofList_toList]

/-! ## Readable texts and offences -/

/-- A text that is read to its end. -/
inductive Readable : List Char → Prop
  | nil : Readable []
  | doubled {c : Char} {cs : List Char} (hc : c = '\x7b' ∨ c = '\x7d') (h : Readable cs) :
    Readable (c :: c :: cs)
  | plain {c : Char} {cs : List Char} (hc : ¬ (c = '\x7b' ∨ c = '\x7d')) (h : Readable cs) :
    Readable (c :: cs)
  | placeholder {name cs : List Char} {s : Segment} (hopen : name.head? ≠ some '\x7b')
    (hclose : '\x7d' ∉ name) (hs : placeholder name = .ok s) (h : Readable cs) :
    Readable ('\x7b' :: (name ++ '\x7d' :: cs))

/-- What is wrong with a text from its first character on, which stands at byte `offset`. -/
inductive Offence (offset : Nat) : List Char → TemplateError → Prop
  | unmatched {after : List Char} (hclose : after.head? ≠ some '\x7d') :
    Offence offset ('\x7d' :: after) (.unmatched offset)
  | unterminated {after : List Char} (hopen : after.head? ≠ some '\x7b') (hclose : '\x7d' ∉ after) :
    Offence offset ('\x7b' :: after) (.unterminated offset)
  | unknown {name after : List Char} {err : TemplateError} (hopen : name.head? ≠ some '\x7b')
    (hclose : '\x7d' ∉ name) (herr : placeholder name = .error err) :
    Offence offset ('\x7b' :: (name ++ '\x7d' :: after)) err

/-- Reading goes through a readable text to what stands behind it. -/
theorem Readable.parseFrom_append {before : List Char} (h : Readable before) (offset : Nat)
    (pending : List Char) :
    ∃ (later : List Char) (finish : List Segment → List Segment), ∀ after,
      parseFrom offset pending (before ++ after) =
        (parseFrom (offset + byteLength before) later after).map finish := by
  induction h generalizing offset pending with
  | nil =>
    refine ⟨pending, id, fun after => ?_⟩
    cases hparse : parseFrom offset pending after <;> simp [byteLength, hparse, Except.map]
  | @doubled c cs hc _ ih =>
    have hsize : c.utf8Size = 1 := by rcases hc with rfl | rfl <;> rfl
    obtain ⟨later, finish, hrest⟩ := ih (offset + 2) (c :: pending)
    refine ⟨later, finish, fun after => ?_⟩
    have hoffset : offset + byteLength (c :: c :: cs) = offset + 2 + byteLength cs := by
      simp only [byteLength, hsize]
      omega
    rw [List.cons_append, List.cons_append, parseFrom_doubled hc, hrest, hoffset]
  | @plain c cs hc _ ih =>
    obtain ⟨later, finish, hrest⟩ := ih (offset + c.utf8Size) (c :: pending)
    refine ⟨later, finish, fun after => ?_⟩
    rw [List.cons_append, parseFrom_plain hc, hrest, byteLength, Nat.add_assoc]
  | @placeholder name cs s hopen hclose hs _ ih =>
    obtain ⟨later, finish, hrest⟩ := ih (offset + byteLength name + 2) []
    refine ⟨later, fun segments => flush pending (s :: finish segments), fun after => ?_⟩
    have hoffset : offset + byteLength ('\x7b' :: (name ++ '\x7d' :: cs)) =
        offset + byteLength name + 2 + byteLength cs := by
      rw [byteLength_placeholder]
      omega
    have happend : '\x7b' :: (name ++ '\x7d' :: cs) ++ after =
        '\x7b' :: (name ++ '\x7d' :: (cs ++ after)) := by simp
    rw [happend, parseFrom_open hopen hclose, hs, hrest, hoffset]
    cases parseFrom (offset + byteLength name + 2 + byteLength cs) later after <;> rfl

/-- A closing brace that is not doubled is unmatched. -/
theorem parseFrom_close {after : List Char} (h : after.head? ≠ some '\x7d') (offset : Nat)
    (pending : List Char) :
    parseFrom offset pending ('\x7d' :: after) = .error (.unmatched offset) := by
  conv_lhs => unfold parseFrom
  cases after with
  | nil => rfl
  | cons c after =>
    split <;> rename_i heq <;> cases heq
    · exact absurd rfl h
    · rfl
    · exact absurd rfl ‹_›

/-- An opening brace that is not doubled is unterminated if no closing one follows. -/
theorem parseFrom_unclosed {after : List Char} (hopen : after.head? ≠ some '\x7b')
    (hclose : '\x7d' ∉ after) (offset : Nat) (pending : List Char) :
    parseFrom offset pending ('\x7b' :: after) = .error (.unterminated offset) := by
  have hdrop : after.dropWhile (· ≠ '\x7d') = [] :=
    List.dropWhile_eq_nil_iff.mpr fun c hc => decide_eq_true fun heq => hclose (heq ▸ hc)
  conv_lhs => unfold parseFrom
  split <;> rename_i heq <;> cases heq
  · exact absurd rfl hopen
  · split
    next => rfl
    next hcons =>
      rw [hdrop] at hcons
      cases hcons
  · exact absurd rfl ‹_›

/-- Reading stops at an offence. -/
theorem Offence.parseFrom_eq {offset : Nat} {after : List Char} {err : TemplateError}
    (h : Offence offset after err) (pending : List Char) :
    parseFrom offset pending after = .error err := by
  cases h with
  | unmatched hclose => exact parseFrom_close hclose offset pending
  | unterminated hopen hclose => exact parseFrom_unclosed hopen hclose offset pending
  | unknown hopen hclose herr =>
    rw [parseFrom_open hopen hclose, herr]
    rfl

/-- A text is readable, or has a readable part with an offence behind it. -/
def Settled (offset : Nat) (cs : List Char) : Prop :=
  Readable cs ∨ ∃ before after err, cs = before ++ after ∧ Readable before ∧
    Offence (offset + byteLength before) after err

theorem Settled.of_offence {offset : Nat} {cs : List Char} {err : TemplateError}
    (h : Offence offset cs err) : Settled offset cs :=
  .inr ⟨[], cs, err, rfl, .nil, h⟩

/-- A piece before a text settles nothing. -/
theorem Settled.append {offset : Nat} {cs : List Char} (piece : List Char)
    (hpiece : ∀ ds, Readable ds → Readable (piece ++ ds))
    (h : Settled (offset + byteLength piece) cs) : Settled offset (piece ++ cs) := by
  rcases h with h | ⟨before, after, err, rfl, hbefore, hoffence⟩
  · exact .inl (hpiece cs h)
  · refine .inr ⟨piece ++ before, after, err, by simp, hpiece before hbefore, ?_⟩
    rwa [byteLength_append, ← Nat.add_assoc]

theorem head?_ne_some {c : Char} {cs : List Char} (h : ∀ ds, cs = c :: ds → False) :
    cs.head? ≠ some c := by
  intro hhead
  obtain ⟨ds, rfl⟩ := List.head?_eq_some_iff.mp hhead
  exact h ds rfl

/-- The induction is on the pieces in which `parseFrom` takes a text. -/
theorem settled (offset : Nat) (pending cs : List Char) : Settled offset cs := by
  fun_induction parseFrom offset pending cs with
  | case1 => exact .inl .nil
  | case2 offset pending cs ih =>
    exact .append ['\x7b', '\x7b'] (fun ds h => h.doubled (.inl rfl)) ih
  | case3 offset pending cs ih =>
    exact .append ['\x7d', '\x7d'] (fun ds h => h.doubled (.inr rfl)) ih
  | case4 offset pending cs hclose => exact .of_offence (.unmatched (head?_ne_some hclose))
  | case5 offset pending cs hopen hdrop =>
    refine .of_offence (.unterminated (head?_ne_some hopen) fun hmem => ?_)
    simpa using List.dropWhile_eq_nil_iff.mp hdrop _ hmem
  | case6 offset pending cs hopen head rest hdrop hlength name =>
    rename_i ih
    obtain ⟨hsplit, hclose⟩ := split_of_dropWhile_ne hdrop
    change cs = name ++ '\x7d' :: rest at hsplit
    have hopen : name.head? ≠ some '\x7b' := by
      intro hhead
      refine head?_ne_some hopen ?_
      rw [hsplit, List.head?_append, hhead]
      rfl
    cases hp : placeholder name with
    | error err =>
      rw [hsplit]
      exact .of_offence (.unknown hopen hclose hp)
    | ok s =>
      have hpiece : '\x7b' :: cs = '\x7b' :: (name ++ ['\x7d']) ++ rest := by simp [hsplit]
      rw [hpiece]
      refine .append _ (fun ds h => ?_) ?_
      · simpa using h.placeholder hopen hclose hp
      · rw [byteLength_placeholder]
        exact ih
  | case7 offset pending c cs _ _ hclose hopen ih =>
    exact .append [c] (fun ds h => h.plain fun hbrace => hbrace.elim hopen hclose) ih

/-! ## The errors of templates -/

section

variable {offset : Nat} {pending cs before after : List Char} {err : TemplateError}

/-- The offence behind a readable text gives the error. -/
theorem Readable.parseFrom_eq_error (hbefore : Readable before)
    (hoffence : Offence (offset + byteLength before) after err) :
    parseFrom offset pending (before ++ after) = .error err := by
  obtain ⟨later, finish, hparse⟩ := hbefore.parseFrom_append offset pending
  rw [hparse, hoffence.parseFrom_eq]
  rfl

theorem Readable.exists_parseFrom (h : Readable cs) :
    ∃ segments, parseFrom offset pending cs = .ok segments := by
  obtain ⟨later, finish, hparse⟩ := h.parseFrom_append offset pending
  refine ⟨finish (flush later []), ?_⟩
  have hend := hparse []
  rwa [List.append_nil, parseFrom_nil] at hend

theorem parseFrom_eq_error_iff :
    parseFrom offset pending cs = .error err ↔
      ∃ before after, cs = before ++ after ∧ Readable before ∧
        Offence (offset + byteLength before) after err := by
  constructor
  · intro h
    rcases settled offset pending cs with hread | ⟨before, after, first, rfl, hbefore, hoffence⟩
    · obtain ⟨segments, hsegments⟩ := @Readable.exists_parseFrom offset pending cs hread
      rw [h] at hsegments
      cases hsegments
    · rw [hbefore.parseFrom_eq_error hoffence] at h
      cases h
      exact ⟨before, after, rfl, hbefore, hoffence⟩
  · rintro ⟨before, after, rfl, hbefore, hoffence⟩
    exact hbefore.parseFrom_eq_error hoffence

theorem exists_parseFrom_iff :
    (∃ segments, parseFrom offset pending cs = .ok segments) ↔ Readable cs := by
  refine ⟨?_, Readable.exists_parseFrom⟩
  rintro ⟨segments, h⟩
  refine (settled offset pending cs).resolve_right ?_
  rintro ⟨before, after, err, rfl, hbefore, hoffence⟩
  rw [hbefore.parseFrom_eq_error hoffence] at h
  cases h

end

/-! ## Placeholders that are not understood -/

theorem placeholder_error {name : List Char} {err : TemplateError}
    (h : placeholder name = .error err) : err = .unknownPlaceholder (String.ofList name) := by
  unfold placeholder at h
  split at h
  · cases h
  split at h
  · cases h
    rfl
  · cases h
    rfl
  · dsimp only at h
    split_ifs at h
    cases h
    rfl

/-- A placeholder is understood if it is the result, or a kind and a name with a dot between. -/
theorem exists_placeholder_iff {name : String} :
    (∃ s, placeholder name.toList = .ok s) ↔ name = "result" ∨
      ∃ kind ∈ ["in", "out", "param", "local"], ∃ ident, ident ≠ "" ∧
        name = kind ++ "." ++ ident := by
  constructor
  · rintro ⟨s, hs⟩
    rcases placeholder_cases hs with ⟨hname, -⟩ | ⟨kind, ident, hname, hkind, hident⟩
    · exact .inl (String.toList_inj.mp hname)
    · refine .inr ⟨String.ofList kind, ?_, String.ofList ident, by simpa using hident, ?_⟩
      · rw [hname, placeholder_dotted kind ident hkind hident] at hs
        split_ifs at hs with hin hout hparam hlocal
        · simp [hin]
        · simp [hout]
        · simp [hparam]
        · simp [hlocal]
      · rw [← String.toList_inj, hname]
        simp
  · rintro (rfl | ⟨kind, hkind, ident, hident, rfl⟩)
    · exact ⟨.result, rfl⟩
    · have hdot : '.' ∉ kind.toList := by
        revert hkind kind
        decide
      have hdotted : (kind ++ "." ++ ident).toList = kind.toList ++ '.' :: ident.toList := by simp
      rw [hdotted, placeholder_dotted kind.toList ident.toList hdot (by simpa using hident)]
      simp only [List.mem_cons, List.not_mem_nil, or_false] at hkind
      rcases hkind with rfl | rfl | rfl | rfl
      · exact ⟨.input ident, by simp⟩
      · exact ⟨.output ident, by simp⟩
      · exact ⟨.parameter ident, by simp⟩
      · exact ⟨.temporary ident, by simp⟩

theorem placeholder_eq_error_iff {name : String} :
    placeholder name.toList = .error (.unknownPlaceholder name) ↔ name ≠ "result" ∧
      ∀ kind ∈ ["in", "out", "param", "local"], ∀ ident, ident ≠ "" →
        name ≠ kind ++ "." ++ ident := by
  have hrefused : placeholder name.toList = .error (.unknownPlaceholder name) ↔
      ¬ ∃ s, placeholder name.toList = .ok s := by
    cases h : placeholder name.toList with
    | ok s => simp
    | error err => simp [placeholder_error h]
  rw [hrefused, exists_placeholder_iff, not_or]
  refine and_congr_right fun _ => ?_
  constructor
  · intro hnone kind hkind ident hident hname
    exact hnone ⟨kind, hkind, ident, hident, hname⟩
  · rintro hall ⟨kind, hkind, ident, hident, hname⟩
    exact hall kind hkind ident hident hname

/-! ## Texts -/

theorem parse_eq_error {source : String} {err : TemplateError} :
    parse source = .error err ↔ parseFrom 0 [] source.toList = .error err := by
  rw [parse, bind_eq_error]
  constructor
  · rintro (h | ⟨segments, -, h⟩)
    · exact h
    · cases h
  · exact .inl

theorem exists_parse_iff {source : String} :
    (∃ t, parse source = .ok t) ↔ Readable source.toList := by
  rw [← @exists_parseFrom_iff 0 [] source.toList]
  constructor
  · rintro ⟨t, h⟩
    obtain ⟨segments, hsegments, -⟩ := bind_eq_ok.mp h
    exact ⟨segments, hsegments⟩
  · rintro ⟨segments, hsegments⟩
    exact ⟨⟨segments⟩, bind_eq_ok.mpr ⟨segments, hsegments, rfl⟩⟩

/-- The error of a template comes from the first offence in its text. -/
theorem parse_eq_error_iff {source : String} {err : TemplateError} :
    parse source = .error err ↔ ∃ before after : String, source = before ++ after ∧
      (∃ t, parse before = .ok t) ∧ Offence before.utf8ByteSize after.toList err := by
  rw [parse_eq_error, parseFrom_eq_error_iff]
  constructor
  · rintro ⟨before, after, hsplit, hbefore, hoffence⟩
    rw [Nat.zero_add] at hoffence
    refine ⟨String.ofList before, String.ofList after, ?_, ?_, ?_⟩
    · rw [← String.ofList_append, ← hsplit, String.ofList_toList]
    · rwa [exists_parse_iff, String.toList_ofList]
    · rwa [utf8ByteSize_eq_byteLength, String.toList_ofList, String.toList_ofList]
  · rintro ⟨before, after, rfl, hbefore, hoffence⟩
    refine ⟨before.toList, after.toList, String.toList_append, exists_parse_iff.mp hbefore, ?_⟩
    rwa [Nat.zero_add, ← utf8ByteSize_eq_byteLength]

theorem offence_unmatched_iff {k offset : Nat} {text : String} :
    Offence k text.toList (.unmatched offset) ↔ k = offset ∧
      ∃ after : String, text = "\x7d" ++ after ∧ after.toList.head? ≠ some '\x7d' := by
  constructor
  · intro h
    generalize htext : text.toList = cs at h
    cases h with
    | @unmatched after hclose =>
      refine ⟨rfl, String.ofList after, ?_, by rwa [String.toList_ofList]⟩
      rw [← String.toList_inj, htext]
      simp
    | unknown _ _ herr => cases placeholder_error herr
  · rintro ⟨rfl, after, rfl, hclose⟩
    rw [String.toList_append]
    exact .unmatched hclose

theorem offence_unterminated_iff {k offset : Nat} {text : String} :
    Offence k text.toList (.unterminated offset) ↔ k = offset ∧
      ∃ after : String, text = "\x7b" ++ after ∧ after.toList.head? ≠ some '\x7b' ∧
        '\x7d' ∉ after.toList := by
  constructor
  · intro h
    generalize htext : text.toList = cs at h
    cases h with
    | @unterminated after hopen hclose =>
      refine ⟨rfl, String.ofList after, ?_, by rwa [String.toList_ofList],
        by rwa [String.toList_ofList]⟩
      rw [← String.toList_inj, htext]
      simp
    | unknown _ _ herr => cases placeholder_error herr
  · rintro ⟨rfl, after, rfl, hopen, hclose⟩
    rw [String.toList_append]
    exact .unterminated hopen hclose

/-- A placeholder offends if it is neither the result nor a kind and a name. -/
theorem offence_unknown_iff {k : Nat} {name text : String} :
    Offence k text.toList (.unknownPlaceholder name) ↔
      (∃ after : String, text = braced name ++ after) ∧ '\x7d' ∉ name.toList ∧
        name.toList.head? ≠ some '\x7b' ∧ name ≠ "result" ∧
        ∀ kind ∈ ["in", "out", "param", "local"], ∀ ident, ident ≠ "" →
          name ≠ kind ++ "." ++ ident := by
  rw [← placeholder_eq_error_iff]
  constructor
  · intro h
    generalize htext : text.toList = cs at h
    generalize herror : TemplateError.unknownPlaceholder name = error at h
    cases h with
    | unmatched => cases herror
    | unterminated => cases herror
    | @unknown chars after err hopen hclose herr =>
      obtain rfl : name.toList = chars := by
        rw [placeholder_error herr] at herror
        cases herror
        rw [String.toList_ofList]
      refine ⟨⟨String.ofList after, ?_⟩, hclose, hopen, herror ▸ herr⟩
      rw [← String.toList_inj, htext]
      simp [braced]
  · rintro ⟨⟨after, rfl⟩, hclose, hopen, herr⟩
    have hbraced : (braced name ++ after).toList =
        '\x7b' :: (name.toList ++ '\x7d' :: after.toList) := by simp [braced]
    rw [hbraced]
    exact .unknown hopen hclose herr

theorem offence_ne_unbound {k : Nat} {cs : List Char} {s : Segment} :
    ¬ Offence k cs (.unbound s) := by
  intro h
  cases h with
  | unknown _ _ herr => cases placeholder_error herr

/-- The error of a template names the first offence in its text. A brace is unmatched or
unterminated at the number of bytes before it. -/
theorem parse_error_first (source : String) :
    (∀ k, parse source = .error (.unmatched k) ↔
      ∃ before after : String, source = before ++ ("\x7d" ++ after) ∧ before.utf8ByteSize = k ∧
        (∃ t, parse before = .ok t) ∧ after.toList.head? ≠ some '\x7d') ∧
    (∀ k, parse source = .error (.unterminated k) ↔
      ∃ before after : String, source = before ++ ("\x7b" ++ after) ∧ before.utf8ByteSize = k ∧
        (∃ t, parse before = .ok t) ∧ after.toList.head? ≠ some '\x7b' ∧ '\x7d' ∉ after.toList) ∧
    (∀ name, parse source = .error (.unknownPlaceholder name) ↔
      (∃ before after : String, source = before ++ (braced name ++ after) ∧
        ∃ t, parse before = .ok t) ∧
      '\x7d' ∉ name.toList ∧ name.toList.head? ≠ some '\x7b' ∧ name ≠ "result" ∧
      ∀ kind ∈ ["in", "out", "param", "local"], ∀ ident, ident ≠ "" →
        name ≠ kind ++ "." ++ ident) ∧
    ∀ s, parse source ≠ .error (.unbound s) := by
  refine ⟨fun k => ?_, fun k => ?_, fun name => ?_, fun s h => ?_⟩
  · rw [parse_eq_error_iff]
    constructor
    · rintro ⟨before, text, rfl, hbefore, hoffence⟩
      obtain ⟨hk, after, rfl, hclose⟩ := offence_unmatched_iff.mp hoffence
      exact ⟨before, after, rfl, hk, hbefore, hclose⟩
    · rintro ⟨before, after, rfl, hk, hbefore, hclose⟩
      exact ⟨before, _, rfl, hbefore, offence_unmatched_iff.mpr ⟨hk, after, rfl, hclose⟩⟩
  · rw [parse_eq_error_iff]
    constructor
    · rintro ⟨before, text, rfl, hbefore, hoffence⟩
      obtain ⟨hk, after, rfl, hopen, hclose⟩ := offence_unterminated_iff.mp hoffence
      exact ⟨before, after, rfl, hk, hbefore, hopen, hclose⟩
    · rintro ⟨before, after, rfl, hk, hbefore, hopen, hclose⟩
      exact ⟨before, _, rfl, hbefore, offence_unterminated_iff.mpr ⟨hk, after, rfl, hopen, hclose⟩⟩
  · rw [parse_eq_error_iff]
    constructor
    · rintro ⟨before, text, rfl, hbefore, hoffence⟩
      obtain ⟨⟨after, rfl⟩, hname⟩ := offence_unknown_iff.mp hoffence
      exact ⟨⟨before, after, rfl, hbefore⟩, hname⟩
    · rintro ⟨⟨before, after, rfl, hbefore⟩, hname⟩
      exact ⟨before, _, rfl, hbefore, offence_unknown_iff.mpr ⟨⟨after, rfl⟩, hname⟩⟩
  · obtain ⟨before, after, -, -, hoffence⟩ := parse_eq_error_iff.mp h
    exact offence_ne_unbound hoffence

-- The accented letter takes two bytes, and the doubled braces are passed.
example : parse "é\x7b\x7b\x7d" = .error (.unmatched 4) := by decide +kernel

end NodeShader.Template
