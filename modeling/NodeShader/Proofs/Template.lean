import Mathlib.Data.List.TakeWhile
import NodeShader.Proofs.Failure
import NodeShader.Template

/-!
# Reading and writing templates

A template's text determines its segments, and the segments determine the text. Reading is
followed along the text with the text that is still pending:

* `Template.parseFrom_escapeText` and `Template.parseFrom_key` say what is read where a text or a
  placeholder is written, whatever stands behind it;
* `Template.parseFrom_ok` says of which form the segments are that come out, and that they are
  written as the text they came from.

The main statement is `Template.parse_eq_ok_iff`: the templates that can be read are those that
are written from segments in normal form, and each is read as these segments.
-/

namespace NodeShader

namespace Segment

def isText : Segment → Bool
  | text _ => true
  | _ => false

/-- A segment that a template can hold: a text that is not empty, or a placeholder whose name is
not empty and has no closing brace in it. -/
def Legible : Segment → Prop
  | text s => s ≠ ""
  | input name | output name | parameter name | temporary name =>
    name ≠ "" ∧ '\x7d' ∉ name.toList
  | result => True

instance : (s : Segment) → Decidable s.Legible
  | .text s => inferInstanceAs (Decidable (s ≠ ""))
  | .input name | .output name | .parameter name | .temporary name =>
    inferInstanceAs (Decidable (name ≠ "" ∧ '\x7d' ∉ name.toList))
  | .result => inferInstanceAs (Decidable True)

/-- What stands between the braces of a placeholder; nothing for a text. -/
def key : Segment → String
  | text _ => ""
  | input name => "in." ++ name
  | output name => "out." ++ name
  | parameter name => "param." ++ name
  | temporary name => "local." ++ name
  | result => "result"

end Segment

namespace Template

/-- Segments as they are read: each is legible, and no two texts stand side by side. -/
structure Normal (segments : List Segment) : Prop where
  legible : ∀ s ∈ segments, s.Legible
  apart : segments.IsChain fun a b => ¬ (a.isText = true ∧ b.isText = true)

instance (segments : List Segment) : Decidable (Normal segments) :=
  decidable_of_iff ((∀ s ∈ segments, s.Legible) ∧
      segments.IsChain fun a b => ¬ (a.isText = true ∧ b.isText = true))
    ⟨fun ⟨h, h'⟩ => ⟨h, h'⟩, fun ⟨h, h'⟩ => ⟨h, h'⟩⟩

/-- Segments that may follow a text. -/
def AfterText (segments : List Segment) : Prop := ∀ s ∈ segments.head?, s.isText = false

/-- The characters of a template with these segments. -/
def chars (segments : List Segment) : List Char :=
  segments.flatMap fun s => (writeSegment s).toList

theorem toList_write (segments : List Segment) : (write segments).toList = chars segments := by
  rw [write, String.toList_join, List.flatMap_map]
  rfl

theorem chars_cons (s : Segment) (segments : List Segment) :
    chars (s :: segments) = (writeSegment s).toList ++ chars segments := rfl

theorem toList_writeSegment {s : Segment} (h : s.isText = false) :
    (writeSegment s).toList = '\x7b' :: (s.key.toList ++ ['\x7d']) := by
  have hdisplay : writeSegment s = braced s.key := by
    cases s with
    | text _ => cases h
    | _ => rfl
  rw [hdisplay, braced, String.toList_append, String.toList_append]
  rfl

/-! ## Texts -/

theorem escapeText_append (cs ds : List Char) :
    escapeText (cs ++ ds) = escapeText cs ++ escapeText ds := by
  induction cs with
  | nil => rfl
  | cons c cs ih =>
    simp only [List.cons_append, escapeText, ih]
    split <;> rfl

theorem parseFrom_nil (offset : Nat) (pending : List Char) :
    parseFrom offset pending [] = .ok (flush pending []) := by
  unfold parseFrom
  rfl

theorem parseFrom_doubled {c : Char} (h : c = '\x7b' ∨ c = '\x7d') (offset : Nat)
    (pending cs : List Char) :
    parseFrom offset pending (c :: c :: cs) = parseFrom (offset + 2) (c :: pending) cs := by
  conv_lhs => unfold parseFrom
  rcases h with rfl | rfl <;> rfl

theorem parseFrom_plain {c : Char} (h : ¬ (c = '\x7b' ∨ c = '\x7d')) (offset : Nat)
    (pending cs : List Char) :
    parseFrom offset pending (c :: cs) =
      parseFrom (offset + c.utf8Size) (c :: pending) cs := by
  rw [not_or] at h
  conv_lhs => unfold parseFrom
  split <;> rename_i heq <;> cases heq
  · exact absurd rfl h.1
  · exact absurd rfl h.2
  · exact absurd rfl h.2
  · exact absurd rfl h.1
  · rfl

/-- A written text is read to its end, whatever follows it. -/
theorem parseFrom_escapeText (offset : Nat) (pending text rest : List Char) :
    parseFrom offset pending (escapeText text ++ rest) =
      parseFrom (offset + byteLength (escapeText text)) (text.reverse ++ pending) rest := by
  induction text generalizing offset pending with
  | nil => rfl
  | cons c text ih =>
    have hpending : (c :: text).reverse ++ pending = text.reverse ++ c :: pending := by simp
    by_cases hbrace : c = '\x7b' ∨ c = '\x7d'
    · have hescape : escapeText (c :: text) = c :: c :: escapeText text := if_pos hbrace
      have hsize : c.utf8Size = 1 := by rcases hbrace with rfl | rfl <;> rfl
      have hoffset : offset + byteLength (c :: c :: escapeText text) =
          offset + 2 + byteLength (escapeText text) := by
        simp only [byteLength, hsize]
        omega
      rw [hescape, hoffset, hpending, ← ih]
      exact parseFrom_doubled hbrace _ _ _
    · have hescape : escapeText (c :: text) = c :: escapeText text := if_neg hbrace
      have hoffset : offset + byteLength (c :: escapeText text) =
          offset + c.utf8Size + byteLength (escapeText text) := by
        simp only [byteLength]
        omega
      rw [hescape, hoffset, hpending, ← ih]
      exact parseFrom_plain hbrace _ _ _

/-! ## Placeholders -/

section Splitting

variable {stop c : Char} {cs rest : List Char}

theorem takeWhile_ne_append (h : stop ∉ cs) (rest : List Char) :
    (cs ++ stop :: rest).takeWhile (· ≠ stop) = cs := by
  have hne : ∀ c ∈ cs, decide (c ≠ stop) = true := fun c hc =>
    decide_eq_true fun heq => h (heq ▸ hc)
  rw [List.takeWhile_append_of_pos hne]
  simp

theorem dropWhile_ne_append (h : stop ∉ cs) (rest : List Char) :
    (cs ++ stop :: rest).dropWhile (· ≠ stop) = stop :: rest := by
  have hne : ∀ c ∈ cs, decide (c ≠ stop) = true := fun c hc =>
    decide_eq_true fun heq => h (heq ▸ hc)
  rw [List.dropWhile_append_of_pos hne]
  simp

theorem split_of_dropWhile_ne (h : cs.dropWhile (· ≠ stop) = c :: rest) :
    cs = cs.takeWhile (· ≠ stop) ++ stop :: rest ∧ stop ∉ cs.takeWhile (· ≠ stop) := by
  have hstop : c = stop := by
    have hhead := List.head?_dropWhile_not (fun x => decide (x ≠ stop)) cs
    rw [h] at hhead
    simpa using hhead
  constructor
  · conv_lhs => rw [← List.takeWhile_append_dropWhile (p := fun x => decide (x ≠ stop)) (l := cs)]
    rw [h, hstop]
  · intro hmem
    simpa using List.mem_takeWhile_imp hmem

end Splitting

/-- A single opening brace begins a placeholder, which the next closing brace ends. -/
theorem parseFrom_open {name : List Char} (hopen : name.head? ≠ some '\x7b')
    (hclose : '\x7d' ∉ name) (offset : Nat) (pending rest : List Char) :
    parseFrom offset pending ('\x7b' :: (name ++ '\x7d' :: rest)) = (do
      let segment ← placeholder name
      let segments ← parseFrom (offset + byteLength name + 2) [] rest
      return flush pending (segment :: segments)) := by
  conv_lhs => unfold parseFrom
  split <;> rename_i heq
  · cases heq
  · -- two opening braces: the second would be the first character of the name
    cases name with
    | nil => simp at heq
    | cons c name => simp_all
  · simp at heq
  · simp at heq
  · simp only [List.cons.injEq, true_and] at heq
    subst heq
    split
    next hdrop =>
      rw [dropWhile_ne_append hclose] at hdrop
      cases hdrop
    next head tail hdrop =>
      rw [dropWhile_ne_append hclose] at hdrop
      cases hdrop
      rw [takeWhile_ne_append hclose]
  · rename_i hplain
    cases heq
    exact absurd rfl hplain

/-- A placeholder with a dot in it is understood by what stands before the first one. -/
theorem placeholder_dotted (kind ident : List Char) (hkind : '.' ∉ kind) (hident : ident ≠ []) :
    placeholder (kind ++ '.' :: ident) =
      if kind = "in".toList then .ok (.input (String.ofList ident))
      else if kind = "out".toList then .ok (.output (String.ofList ident))
      else if kind = "param".toList then .ok (.parameter (String.ofList ident))
      else if kind = "local".toList then .ok (.temporary (String.ofList ident))
      else .error (.unknownPlaceholder (String.ofList (kind ++ '.' :: ident))) := by
  have hresult : kind ++ '.' :: ident ≠ "result".toList := by
    intro heq
    have hdot : '.' ∈ "result".toList := by
      rw [← heq]
      simp
    revert hdot
    decide
  obtain ⟨c, cs, rfl⟩ := List.exists_cons_of_ne_nil hident
  simp only [placeholder, if_neg hresult, takeWhile_ne_append hkind, dropWhile_ne_append hkind]

/-- A placeholder that is understood stands for the result or has a kind and a name. -/
theorem placeholder_cases {name : List Char} {s : Segment} (h : placeholder name = .ok s) :
    (name = "result".toList ∧ s = .result) ∨
      ∃ kind ident, name = kind ++ '.' :: ident ∧ '.' ∉ kind ∧ ident ≠ [] := by
  by_cases hresult : name = "result".toList
  · rw [placeholder, if_pos hresult] at h
    cases h
    exact .inl ⟨hresult, rfl⟩
  · cases hdrop : name.dropWhile (· ≠ '.') with
    | nil =>
      simp only [placeholder, if_neg hresult, hdrop] at h
      cases h
    | cons dot ident =>
      obtain ⟨hsplit, hkind⟩ := split_of_dropWhile_ne hdrop
      refine .inr ⟨_, ident, hsplit, hkind, ?_⟩
      rintro rfl
      simp only [placeholder, if_neg hresult, hdrop] at h
      cases h

/-- A legible placeholder is understood. -/
theorem placeholder_key {s : Segment} (hs : s.isText = false) (h : s.Legible) :
    placeholder s.key.toList = .ok s := by
  have hname {name : String} (hne : name ≠ "") : name.toList ≠ [] := by simpa using hne
  cases s with
  | text _ => cases hs
  | input name =>
    rw [Segment.key, String.toList_append]
    exact (placeholder_dotted "in".toList _ (by decide) (hname h.1)).trans (by simp)
  | output name =>
    rw [Segment.key, String.toList_append]
    exact (placeholder_dotted "out".toList _ (by decide) (hname h.1)).trans (by simp)
  | parameter name =>
    rw [Segment.key, String.toList_append]
    exact (placeholder_dotted "param".toList _ (by decide) (hname h.1)).trans (by simp)
  | temporary name =>
    rw [Segment.key, String.toList_append]
    exact (placeholder_dotted "local".toList _ (by decide) (hname h.1)).trans (by simp)
  | result => rfl

/-- What is understood of a placeholder is all that it says. -/
theorem key_of_placeholder {name : List Char} {s : Segment} (h : placeholder name = .ok s)
    (hclose : '\x7d' ∉ name) : s.isText = false ∧ s.key.toList = name ∧ s.Legible := by
  rcases placeholder_cases h with ⟨rfl, rfl⟩ | ⟨kind, ident, rfl, hkind, hident⟩
  · exact ⟨rfl, rfl, trivial⟩
  · have hlegible : String.ofList ident ≠ "" ∧ '\x7d' ∉ (String.ofList ident).toList := by
      refine ⟨by simpa using hident, ?_⟩
      rw [String.toList_ofList]
      exact fun hmem => hclose (by simp [hmem])
    rw [placeholder_dotted kind ident hkind hident] at h
    split_ifs at h with hin hout hparam hlocal <;> cases h
    · exact ⟨rfl, by simp [Segment.key, hin], hlegible⟩
    · exact ⟨rfl, by simp [Segment.key, hout], hlegible⟩
    · exact ⟨rfl, by simp [Segment.key, hparam], hlegible⟩
    · exact ⟨rfl, by simp [Segment.key, hlocal], hlegible⟩

theorem close_not_mem_key {s : Segment} (h : s.Legible) : '\x7d' ∉ s.key.toList := by
  cases s with
  | text _ => simp [Segment.key]
  | input name => simpa [Segment.key] using h.2
  | output name => simpa [Segment.key] using h.2
  | parameter name => simpa [Segment.key] using h.2
  | temporary name => simpa [Segment.key] using h.2
  | result => simp [Segment.key]

theorem head?_key (s : Segment) : s.key.toList.head? ≠ some '\x7b' := by
  cases s <;> simp [Segment.key]

/-- A written placeholder is read to its end, and ends the pending text. -/
theorem parseFrom_key {s : Segment} (hs : s.isText = false) (h : s.Legible) (offset : Nat)
    (pending rest : List Char) :
    parseFrom offset pending ('\x7b' :: (s.key.toList ++ '\x7d' :: rest)) =
      (parseFrom (offset + byteLength s.key.toList + 2) [] rest).map
        fun segments => flush pending (s :: segments) := by
  rw [parseFrom_open (head?_key s) (close_not_mem_key h), placeholder_key hs h]
  cases parseFrom (offset + byteLength s.key.toList + 2) [] rest <;> rfl

/-! ## Whole templates -/

theorem Normal.tail {s : Segment} {segments : List Segment} (h : Normal (s :: segments)) :
    Normal segments :=
  ⟨fun t ht => h.legible t (List.mem_cons_of_mem _ ht), h.apart.of_cons⟩

theorem Normal.cons {s : Segment} {segments : List Segment} (hs : s.Legible) (h : Normal segments)
    (hafter : s.isText = true → AfterText segments) : Normal (s :: segments) := by
  refine ⟨?_, ?_⟩
  · intro t ht
    rcases List.mem_cons.mp ht with rfl | ht
    · exact hs
    · exact h.legible t ht
  · cases segments with
    | nil => exact .singleton s
    | cons t segments =>
      refine List.isChain_cons_cons.mpr ⟨?_, h.apart⟩
      rintro ⟨htext, hnext⟩
      have hplaceholder : t.isText = false := hafter htext t rfl
      rw [hplaceholder] at hnext
      cases hnext

theorem Normal.afterText {text : String} {segments : List Segment}
    (h : Normal (.text text :: segments)) : AfterText segments := by
  cases segments with
  | nil => simp [AfterText]
  | cons t segments =>
    have hapart := (List.isChain_cons_cons.mp h.apart).1
    simpa [AfterText, Segment.isText] using hapart

theorem flush_nil (segments : List Segment) : flush [] segments = segments := rfl

theorem flush_reverse {text : String} (h : text ≠ "") (segments : List Segment) :
    flush text.toList.reverse segments = .text text :: segments := by
  simp [flush, h]

/-- What is written from segments in normal form is read as these segments, behind the text that
was pending before it if they may follow a text. -/
theorem parseFrom_chars {segments : List Segment} (h : Normal segments) (offset : Nat)
    (pending : List Char) (hpending : pending = [] ∨ AfterText segments) :
    parseFrom offset pending (chars segments) = .ok (flush pending segments) := by
  induction segments generalizing offset pending with
  | nil => exact parseFrom_nil offset pending
  | cons s segments ih =>
    rw [chars_cons]
    cases hs : s.isText with
    | true =>
      -- a text becomes pending, and the segments behind it may follow a text
      cases s with
      | text text =>
        have hnil : pending = [] := by
          rcases hpending with hnil | hafter
          · exact hnil
          · exact absurd (hafter _ rfl) (by simp [hs])
        have htext : (writeSegment (.text text)).toList = escapeText text.toList := by
          simp [writeSegment]
        rw [htext, parseFrom_escapeText, ih h.tail _ _ (.inr h.afterText), hnil, List.append_nil,
          flush_reverse (h.legible _ List.mem_cons_self), flush_nil]
      | _ => cases hs
    | false =>
      have hchars : (writeSegment s).toList ++ chars segments =
          '\x7b' :: (s.key.toList ++ '\x7d' :: chars segments) := by
        simp [toList_writeSegment hs]
      rw [hchars, parseFrom_key hs (h.legible s List.mem_cons_self), ih h.tail _ _ (.inl rfl)]
      rfl

theorem parse_write {segments : List Segment} (h : Normal segments) :
    parse (write segments) = .ok ⟨segments⟩ := by
  rw [parse, toList_write, parseFrom_chars h 0 [] (.inl rfl), flush_nil]
  rfl

theorem chars_flush (pending : List Char) (segments : List Segment) :
    chars (flush pending segments) = escapeText pending.reverse ++ chars segments := by
  by_cases h : pending = []
  · subst h
    rfl
  · simp [flush, h, chars_cons, writeSegment]

theorem normal_flush {pending : List Char} {segments : List Segment} (h : Normal segments)
    (hafter : AfterText segments) : Normal (flush pending segments) := by
  by_cases hp : pending = []
  · subst hp
    exact h
  · have hne : String.ofList pending.reverse ≠ "" := by simpa using hp
    have hflush : flush pending segments = .text (String.ofList pending.reverse) :: segments := by
      simp [flush, hp]
    rw [hflush]
    exact h.cons hne fun _ => hafter

/-- What is read is in normal form, and written as the text it was read from. -/
theorem parseFrom_ok {offset : Nat} {pending cs : List Char} {segments : List Segment}
    (h : parseFrom offset pending cs = .ok segments) :
    Normal segments ∧ chars segments = escapeText pending.reverse ++ cs := by
  fun_induction parseFrom offset pending cs generalizing segments with
  | case1 offset pending =>
    cases h
    exact ⟨normal_flush ⟨by simp, .nil⟩ (by simp [AfterText]), chars_flush pending []⟩
  | case2 offset pending cs ih =>
    obtain ⟨hnormal, hchars⟩ := ih h
    exact ⟨hnormal, by simp [hchars, escapeText_append, escapeText]⟩
  | case3 offset pending cs ih =>
    obtain ⟨hnormal, hchars⟩ := ih h
    exact ⟨hnormal, by simp [hchars, escapeText_append, escapeText]⟩
  | case4 => cases h
  | case5 => cases h
  | case6 offset pending cs hopen head rest hdrop hlength name =>
    rename_i ih
    obtain ⟨s, hs, h⟩ := bind_eq_ok.mp h
    obtain ⟨others, hothers, h⟩ := bind_eq_ok.mp h
    cases h
    obtain ⟨hnormal, hchars⟩ := ih hothers
    obtain ⟨hsplit, hclose⟩ := split_of_dropWhile_ne hdrop
    obtain ⟨htext, hkey, hlegible⟩ := key_of_placeholder hs hclose
    have hafter : AfterText (s :: others) := by simpa [AfterText] using htext
    refine ⟨normal_flush (hnormal.cons hlegible ?_) hafter, ?_⟩
    · rw [htext]
      intro hfalse
      cases hfalse
    · rw [chars_flush, chars_cons, toList_writeSegment htext, hkey, hchars]
      conv_rhs => rw [hsplit]
      simp [name, escapeText]
  | case7 offset pending c cs _ _ hclose hopen ih =>
    obtain ⟨hnormal, hchars⟩ := ih h
    have hplain : ¬ (c = '\x7b' ∨ c = '\x7d') := fun hbrace => hbrace.elim hopen hclose
    exact ⟨hnormal, by simp [hchars, escapeText_append, escapeText, hplain]⟩

/-- Reading a template is the inverse of writing one. A text is read as a template exactly if the
template's segments are in normal form and are written as that text. -/
theorem parse_eq_ok_iff (source : String) (t : Template) :
    parse source = .ok t ↔ Normal t.segments ∧ write t.segments = source := by
  have hread : parse source = .ok t ↔ parseFrom 0 [] source.toList = .ok t.segments := by
    rw [parse, bind_eq_ok]
    constructor
    · rintro ⟨segments, hsegments, h⟩
      cases h
      exact hsegments
    · intro h
      exact ⟨t.segments, h, rfl⟩
  rw [hread, ← String.toList_inj, toList_write]
  constructor
  · exact parseFrom_ok
  · rintro ⟨hnormal, hchars⟩
    rw [← hchars, parseFrom_chars hnormal 0 [] (.inl rfl), flush_nil]

-- the first two braces stand for one, the third opens a placeholder, and names may have dots
example : parse "\x7b\x7b\x7bin.a.b\x7d\x7d\x7d" =
    .ok ⟨[.text "\x7b", .input "a.b", .text "\x7d"]⟩ := by decide +kernel

end Template

end NodeShader
