import Mathlib.Data.String.Basic
import NodeShader.Parameter.Resolve
import NodeShader.Proofs.Nearest

/-!
# Colors written in hexadecimal

The texts that are read as colors are `#` and three or six hexadecimal digits (`IsColorText`). Their
digits write three bytes (`WritesColor`), and a component is the number nearest to a byte divided
by 255 (`hexColor_eq_ok_iff`). Digits are told by a list of characters (`hexDigits`), and their
values by their places in it (`hexValue`), without regard to case. A digit is a single byte, so that
texts of digits can be cut at every byte (`byteSlice_hexDigits`).

* `hexColor_exact`: which texts are colors, which colors they are, and what is said of the others.
-/

namespace NodeShader

/-! ## Digits -/

/-- The hexadecimal digits of either case. -/
def hexDigits : List Char := "0123456789abcdefABCDEF".toList

/-- The value of a hexadecimal digit: its place among the sixteen digits. -/
def hexValue (c : Char) : Nat := "0123456789abcdef".toList.idxOf c.toLower

/-- What holds of the characters below 128 and of those above holds of every character. -/
theorem forall_char {p : Char → Prop} (hascii : ∀ code : Fin 128, p (Char.ofNat code))
    (hbeyond : ∀ c : Char, 128 ≤ c.toNat → p c) (c : Char) : p c := by
  rcases Nat.lt_or_ge c.toNat 128 with hc | hc
  · rw [← Char.ofNat_toNat c]
    exact hascii ⟨_, hc⟩
  · exact hbeyond c hc

theorem toNat_lt_of_mem_hexDigits {c : Char} (h : c ∈ hexDigits) : c.toNat < 128 := by
  have hall : hexDigits.all (·.toNat < 128) = true := by decide
  simpa using List.all_eq_true.mp hall c h

theorem toLower_of_le {c : Char} (h : 128 ≤ c.toNat) : c.toLower = c := by
  have hnot : ¬ (c.val ≥ 'A'.val ∧ c.val ≤ 'Z'.val) := by
    rintro ⟨-, hle⟩
    have : c.toNat ≤ 90 := UInt32.le_iff_toNat_le.mp hle
    omega
  exact dif_neg hnot

theorem hexDigit?_of_le {c : Char} (h : 128 ≤ c.toNat) : hexDigit? c = none := by
  have hbelow {a d : Char} (hd : d.toNat < 128) : ¬ (a ≤ c ∧ c ≤ d) := by
    rintro ⟨-, hle⟩
    have : c.toNat ≤ d.toNat := hle
    omega
  rw [hexDigit?, if_neg (hbelow (by decide)), if_neg (hbelow (by decide)),
    if_neg (hbelow (by decide))]

theorem hexDigit?_eq (c : Char) :
    hexDigit? c = if c ∈ hexDigits then some (hexValue c) else none := by
  revert c
  refine forall_char (by decide +kernel) fun c hc => ?_
  rw [hexDigit?_of_le hc, if_neg]
  exact fun hmem => Nat.not_lt.mpr hc (toNat_lt_of_mem_hexDigits hmem)

theorem isHexDigit_iff {c : Char} : isHexDigit c = true ↔ c ∈ hexDigits := by
  rw [isHexDigit, hexDigit?_eq]
  split <;> simp [*]

theorem hexValue_lt {c : Char} (h : c ∈ hexDigits) : hexValue c < 16 := by
  have hall : hexDigits.all (fun c => decide (hexValue c < 16)) = true := by decide +kernel
  exact of_decide_eq_true (List.all_eq_true.mp hall c h)

theorem toLower_mem_hexDigits_iff (c : Char) : c.toLower ∈ hexDigits ↔ c ∈ hexDigits := by
  revert c
  refine forall_char (by decide +kernel) fun c hc => ?_
  rw [toLower_of_le hc]

theorem hexValue_toLower (c : Char) : hexValue c.toLower = hexValue c := by
  revert c
  refine forall_char (by decide +kernel) fun c hc => ?_
  rw [toLower_of_le hc]

theorem toLower_eq_hash_iff (c : Char) : c.toLower = '#' ↔ c = '#' := by
  revert c
  refine forall_char (by decide +kernel) fun c hc => ?_
  rw [toLower_of_le hc]

theorem utf8Len_of_hexDigits {cs : List Char} (h : ∀ c ∈ cs, c ∈ hexDigits) :
    String.utf8Len cs = cs.length := by
  induction cs with
  | nil => rfl
  | cons c cs ih =>
    obtain ⟨hc, hcs⟩ := List.forall_mem_cons.mp h
    have hsize : c.utf8Size = 1 :=
      Char.utf8Size_eq_one_iff.mpr (Nat.le_of_lt_succ (toNat_lt_of_mem_hexDigits hc))
    rw [String.utf8Len_cons, ih hcs, hsize, List.length_cons]

/-! ## Cutting by bytes -/

/-- A text of hexadecimal digits has one byte for each of them. -/
theorem utf8ByteSize_ofList_hexDigits {cs : List Char} (h : ∀ c ∈ cs, c ∈ hexDigits) :
    (String.ofList cs).utf8ByteSize = cs.length := by
  rw [String.utf8ByteSize_ofList, utf8Len_of_hexDigits h]

theorem isValid_hexDigits {cs : List Char} (h : ∀ c ∈ cs, c ∈ hexDigits) {i : Nat}
    (hi : i ≤ cs.length) : String.Pos.Raw.IsValid (.ofList cs) ⟨i⟩ := by
  refine String.Pos.Raw.isValid_iff_exists_append.mpr
    ⟨.ofList (cs.take i), .ofList (cs.drop i), ?_, ?_⟩
  · rw [← String.ofList_append, List.take_append_drop]
  · rw [String.rawEndPos_ofList, utf8Len_of_hexDigits fun c hc => h c (List.mem_of_mem_take hc),
      List.length_take, Nat.min_eq_left hi]

/-- A text of hexadecimal digits can be cut at every byte, and the part between two cuts are the
digits between them. -/
theorem byteSlice_hexDigits {cs : List Char} (h : ∀ c ∈ cs, c ∈ hexDigits) {i j : Nat}
    (hij : i ≤ j) (hj : j ≤ cs.length) :
    byteSlice (.ofList cs) i j = .ok (.ofList ((cs.take j).drop i)) := by
  rw [byteSlice, if_pos ⟨hij, isValid_hexDigits h (hij.trans hj), isValid_hexDigits h hj⟩]
  -- the text is what stands before the cuts, between them and after them
  have hparts : cs = cs.take i ++ (cs.take j).drop i ++ cs.drop j := by
    have htake : cs.take i = (cs.take j).take i := by rw [List.take_take, Nat.min_eq_left hij]
    rw [htake, List.take_append_drop, List.take_append_drop]
  have hbefore : String.utf8Len (cs.take i) = i := by
    rw [utf8Len_of_hexDigits fun c hc => h c (List.mem_of_mem_take hc), List.length_take]
    omega
  have hbetween : String.utf8Len ((cs.take j).drop i) = j - i := by
    rw [utf8Len_of_hexDigits fun c hc => h c (List.mem_of_mem_take (List.mem_of_mem_drop hc)),
      List.length_drop, List.length_take]
    omega
  have hextract := String.extract_of_valid (cs.take i) ((cs.take j).drop i) (cs.drop j)
  rw [← hparts, hbefore, hbetween, Nat.add_sub_cancel' hij] at hextract
  rw [hextract]

/-! ## Texts of colors -/

/-- `#` and three or six hexadecimal digits. -/
def IsColorText (text : String) : Prop :=
  ∃ digits, text.toList = '#' :: digits ∧ (digits.length = 3 ∨ digits.length = 6) ∧
    ∀ c ∈ digits, c ∈ hexDigits

/-- The byte that two hexadecimal digits write. -/
def hexPair (high low : Char) : Nat := 16 * hexValue high + hexValue low

/-- The bytes that a text of a color writes: two digits for each of them, or one digit that stands
for itself twice. -/
inductive WritesColor : String → Nat → Nat → Nat → Prop where
  | three {r g b : Char} (h : ∀ c ∈ [r, g, b], c ∈ hexDigits) :
    WritesColor (.ofList ['#', r, g, b]) (hexPair r r) (hexPair g g) (hexPair b b)
  | six {r r' g g' b b' : Char} (h : ∀ c ∈ [r, r', g, g', b, b'], c ∈ hexDigits) :
    WritesColor (.ofList ['#', r, r', g, g', b, b']) (hexPair r r') (hexPair g g') (hexPair b b')

theorem isColorText_iff {text : String} : IsColorText text ↔ ∃ x y z, WritesColor text x y z := by
  constructor
  · rintro ⟨digits, htext, hlength | hlength, hdigits⟩
    · obtain ⟨r, g, b, rfl⟩ := List.length_eq_three.mp hlength
      rw [← String.ofList_toList (s := text), htext]
      exact ⟨_, _, _, .three hdigits⟩
    · rcases digits with _ | ⟨r, _ | ⟨r', _ | ⟨g, _ | ⟨g', _ | ⟨b, _ | ⟨b', _ | ⟨_, _⟩⟩⟩⟩⟩⟩⟩ <;>
        try (simp at hlength; done)
      rw [← String.ofList_toList (s := text), htext]
      exact ⟨_, _, _, .six hdigits⟩
  · rintro ⟨x, y, z, h⟩
    cases h with
    | three h => exact ⟨_, String.toList_ofList, .inl rfl, h⟩
    | six h => exact ⟨_, String.toList_ofList, .inr rfl, h⟩

/-! ## Reading -/

theorem channelByte_pair {high low : Char} (hhigh : high ∈ hexDigits) (hlow : low ∈ hexDigits) :
    channelByte (.ofList [high, low]) = .ok (hexPair high low) := by
  have hdigits : afterPlus [high, low] = [high, low] := by
    rw [afterPlus]
    rintro digits ⟨⟩
    exact absurd hhigh (by decide)
  have hvalue : ofDigits? 16 [high, low] = some (hexPair high low) := by
    have hvalues : [high, low].mapM hexDigit? = some [hexValue high, hexValue low] := by
      simp [hexDigit?_eq, hhigh, hlow]
    simp [ofDigits?, hvalues, hexValue_lt, hhigh, hlow, hexPair]
  have hsmall : hexPair high low ≤ 255 := by
    have := hexValue_lt hhigh
    have := hexValue_lt hlow
    rw [hexPair]
    omega
  simp only [channelByte, String.toList_ofList, hdigits, hvalue]
  simp [Nat.not_lt.mpr hsmall]

theorem channelBytes_three {r g b : Char} (h : ∀ c ∈ [r, g, b], c ∈ hexDigits) :
    channelBytes (.ofList [r, g, b]) = .ok (hexPair r r, hexPair g g, hexPair b b) := by
  have hsize : (String.ofList [r, g, b]).utf8ByteSize = 3 := utf8ByteSize_ofList_hexDigits h
  have hbyte {c : Char} (hc : c ∈ [r, g, b]) : doubledByte (some c) = .ok (hexPair c c) :=
    channelByte_pair (h c hc) (h c hc)
  simp only [channelBytes, hsize, String.toList_ofList, List.getElem?_cons_zero,
    List.getElem?_cons_succ]
  rw [hbyte (by simp), hbyte (by simp), hbyte (by simp)]
  rfl

theorem channelBytes_six {r r' g g' b b' : Char} (h : ∀ c ∈ [r, r', g, g', b, b'], c ∈ hexDigits) :
    channelBytes (.ofList [r, r', g, g', b, b']) =
      .ok (hexPair r r', hexPair g g', hexPair b b') := by
  have hsize : (String.ofList [r, r', g, g', b, b']).utf8ByteSize = 6 :=
    utf8ByteSize_ofList_hexDigits h
  have hslice {i j : Nat} (hij : i ≤ j) (hj : j ≤ 6) :=
    byteSlice_hexDigits h (i := i) (j := j) hij hj
  simp only [channelBytes, hsize]
  rw [hslice (by decide) (by decide), hslice (by decide) (by decide),
    hslice (by decide) (by decide)]
  simp only [List.forall_mem_cons] at h
  change (do
    let x ← channelByte (.ofList [r, r'])
    let y ← channelByte (.ofList [g, g'])
    let z ← channelByte (.ofList [b, b'])
    return (x, y, z)) = _
  rw [channelByte_pair h.1 h.2.1, channelByte_pair h.2.2.1 h.2.2.2.1,
    channelByte_pair h.2.2.2.2.1 h.2.2.2.2.2.1]
  rfl

theorem WritesColor.hexColor_eq {text : String} {x y z : Nat} (h : WritesColor text x y z) :
    hexColor text = .ok (byteComponent x, byteComponent y, byteComponent z) := by
  have hread {digits : List Char} {x y z : Nat} (h : ∀ c ∈ digits, c ∈ hexDigits)
      (hbytes : channelBytes (.ofList digits) = .ok (x, y, z)) :
      hexColor (.ofList ('#' :: digits)) =
        .ok (byteComponent x, byteComponent y, byteComponent z) := by
    have hall : digits.all isHexDigit = true :=
      List.all_eq_true.mpr fun c hc => isHexDigit_iff.mpr (h c hc)
    simp only [hexColor, String.toList_ofList, hall, if_true, hbytes]
    rfl
  cases h with
  | three h => exact hread h (channelBytes_three h)
  | six h => exact hread h (channelBytes_six h)

/-- A text that is not `#` and three or six digits is malformed; nothing else can go wrong. -/
theorem hexColor_eq_error {text : String} (h : ¬ IsColorText text) :
    hexColor text = .error .malformed := by
  rw [hexColor]
  split
  next digits htext =>
    split
    next hall =>
      have hdigits : ∀ c ∈ digits, c ∈ hexDigits := fun c hc =>
        isHexDigit_iff.mp (List.all_eq_true.mp hall c hc)
      have hsize := utf8ByteSize_ofList_hexDigits hdigits
      have hbytes : channelBytes (.ofList digits) = .error .malformed := by
        rw [channelBytes, hsize]
        split
        next hlength => exact absurd ⟨digits, htext, .inr hlength, hdigits⟩ h
        next hlength => exact absurd ⟨digits, htext, .inl hlength, hdigits⟩ h
        next => rfl
      rw [hbytes]
      rfl
    next => rfl
  next => rfl

theorem isNearest_byte_iff {component : Single} {byte : Nat} :
    component.IsNearest false (byte / 255) ↔ component = byteComponent byte := by
  have hnearest : (byteComponent byte).IsNearest false (byte / 255) := by
    rw [byteComponent]
    simpa using Binary.isNearest_nearest (f := .single) (by decide) false byte
      (show 0 < 255 by decide)
  exact ⟨fun h => h.unique hnearest, fun h => h ▸ hnearest⟩

/-- A text is read as the color whose components are nearest to its bytes divided by 255. -/
theorem hexColor_eq_ok_iff {text : String} {r g b : Single} :
    hexColor text = .ok (r, g, b) ↔ ∃ x y z, WritesColor text x y z ∧
      r.IsNearest false (x / 255) ∧ g.IsNearest false (y / 255) ∧ b.IsNearest false (z / 255) := by
  simp only [isNearest_byte_iff]
  constructor
  · intro h
    by_cases hcolor : IsColorText text
    · obtain ⟨x, y, z, hwrites⟩ := isColorText_iff.mp hcolor
      rw [hwrites.hexColor_eq] at h
      cases h
      exact ⟨x, y, z, hwrites, rfl, rfl, rfl⟩
    · rw [hexColor_eq_error hcolor] at h
      cases h
  · rintro ⟨x, y, z, hwrites, rfl, rfl, rfl⟩
    exact hwrites.hexColor_eq

theorem exists_hexColor_iff {text : String} :
    (∃ color, hexColor text = .ok color) ↔ IsColorText text := by
  constructor
  · rintro ⟨⟨r, g, b⟩, h⟩
    obtain ⟨x, y, z, hwrites, -⟩ := hexColor_eq_ok_iff.mp h
    exact isColorText_iff.mpr ⟨x, y, z, hwrites⟩
  · intro h
    obtain ⟨x, y, z, hwrites⟩ := isColorText_iff.mp h
    exact ⟨_, hwrites.hexColor_eq⟩

/-! ## Spellings of one color -/

theorem isColorText_toLower {text : String} :
    IsColorText (.ofList (text.toList.map Char.toLower)) ↔ IsColorText text := by
  simp only [IsColorText, String.toList_ofList, List.map_eq_cons_iff, toLower_eq_hash_iff]
  constructor
  · rintro ⟨_, ⟨_, digits, htext, rfl, rfl⟩, hlength, hdigits⟩
    refine ⟨digits, htext, by simpa using hlength, fun c hc => ?_⟩
    exact (toLower_mem_hexDigits_iff c).mp (hdigits _ (List.mem_map_of_mem hc))
  · rintro ⟨digits, htext, hlength, hdigits⟩
    refine ⟨_, ⟨'#', digits, htext, rfl, rfl⟩, by simpa using hlength, fun c hc => ?_⟩
    obtain ⟨d, hd, rfl⟩ := List.mem_map.mp hc
    exact (toLower_mem_hexDigits_iff d).mpr (hdigits d hd)

theorem WritesColor.toLower {text : String} {x y z : Nat} (h : WritesColor text x y z) :
    WritesColor (.ofList (text.toList.map Char.toLower)) x y z := by
  have hdigits {cs : List Char} (h : ∀ c ∈ cs, c ∈ hexDigits) :
      ∀ c ∈ cs.map Char.toLower, c ∈ hexDigits :=
    List.forall_mem_map.mpr fun c hc => (toLower_mem_hexDigits_iff c).mpr (h c hc)
  cases h with
  | three h =>
    have hlower := WritesColor.three (hdigits h)
    simp only [hexPair, hexValue_toLower] at hlower
    rwa [String.toList_ofList]
  | six h =>
    have hlower := WritesColor.six (hdigits h)
    simp only [hexPair, hexValue_toLower] at hlower
    rwa [String.toList_ofList]

theorem hexColor_toLower (text : String) :
    hexColor (.ofList (text.toList.map Char.toLower)) = hexColor text := by
  by_cases h : IsColorText text
  · obtain ⟨x, y, z, hwrites⟩ := isColorText_iff.mp h
    rw [hwrites.hexColor_eq, hwrites.toLower.hexColor_eq]
  · rw [hexColor_eq_error h, hexColor_eq_error (mt isColorText_toLower.mp h)]

theorem hexColor_double (r g b : Char) :
    hexColor (.ofList ['#', r, g, b]) = hexColor (.ofList ['#', r, r, g, g, b, b]) := by
  by_cases h : ∀ c ∈ [r, g, b], c ∈ hexDigits
  · have hdouble : ∀ c ∈ [r, r, g, g, b, b], c ∈ hexDigits := by simpa using h
    rw [(WritesColor.three h).hexColor_eq, (WritesColor.six hdouble).hexColor_eq]
  · have hmalformed {digits : List Char} (hsame : ∀ c ∈ [r, g, b], c ∈ digits) :
        hexColor (.ofList ('#' :: digits)) = .error .malformed := by
      refine hexColor_eq_error fun hcolor => ?_
      obtain ⟨_, htext, -, hdigits⟩ := hcolor
      rw [String.toList_ofList] at htext
      cases htext
      exact h fun c hc => hdigits c (hsame c hc)
    rw [hmalformed (by simp), hmalformed (by simp)]

theorem Parameter.resolve_color_text {p : Parameter} (hp : p.type = .color) (text : String) :
    p.resolve (.text text) =
      ((hexColor text).mapError fun _ => .malformedColor text).map fun color =>
        .color color.1 color.2.1 color.2.2 := by
  simp only [resolve, hp]
  cases hexColor text <;> rfl

/-- A text is a color exactly if it is `#` and three or six hexadecimal digits. Its components are
the numbers nearest to the bytes that the digits write, divided by 255, in order. No text is cut
inside a character: every other text is malformed. Neither the case of letters nor the use of one
digit for two equal ones makes a difference. A parameter takes the color that it is given and names
every other text as malformed. -/
theorem hexColor_exact :
    (∀ text, (∃ color, hexColor text = .ok color) ↔ IsColorText text) ∧
    (∀ text r g b, hexColor text = .ok (r, g, b) ↔ ∃ x y z, WritesColor text x y z ∧
      r.IsNearest false (x / 255) ∧ g.IsNearest false (y / 255) ∧ b.IsNearest false (z / 255)) ∧
    (∀ text, hexColor text ≠ .error .cutCharacter) ∧
    (∀ text other : String, text.toList.map Char.toLower = other.toList.map Char.toLower →
      hexColor text = hexColor other) ∧
    (∀ r g b, hexColor (.ofList ['#', r, g, b]) = hexColor (.ofList ['#', r, r, g, g, b, b])) ∧
    ∀ p : Parameter, p.type = .color → ∀ text,
      (∀ r g b, hexColor text = .ok (r, g, b) → p.resolve (.text text) = .ok (.color r g b)) ∧
      (¬ IsColorText text → hexColor text = .error .malformed ∧
        p.resolve (.text text) = .error (.malformedColor text)) := by
  refine ⟨fun text => exists_hexColor_iff, fun text r g b => hexColor_eq_ok_iff,
    fun text hcut => ?_, fun text other h => ?_, hexColor_double,
    fun p hp text => ⟨fun r g b h => ?_, fun h => ?_⟩⟩
  · by_cases h : IsColorText text
    · obtain ⟨color, hcolor⟩ := exists_hexColor_iff.mpr h
      rw [hcolor] at hcut
      cases hcut
    · rw [hexColor_eq_error h] at hcut
      cases hcut
  · rw [← hexColor_toLower text, h, hexColor_toLower]
  · rw [Parameter.resolve_color_text hp, h]
    rfl
  · have hmalformed := hexColor_eq_error h
    refine ⟨hmalformed, ?_⟩
    rw [Parameter.resolve_color_text hp, hmalformed]
    rfl

def accent : Parameter := .color "accent" (.ofInt 1) (.ofInt 0) (.ofInt 0)

/-- Three digits of both cases, in two other spellings; and texts that have three characters or six
bytes after the `#`, or a sign, but not only digits. -/
theorem accent_color :
    accent.resolve (.text "#0aF") =
        .ok (.color (.nearest false 0 255) (.nearest false 170 255) (.nearest false 255 255)) ∧
      hexColor "#0aF" = hexColor "#0Af" ∧ hexColor "#0aF" = hexColor "#00aaFF" ∧
      ∀ text ∈ ["#ééé", "#é12", "#+1+2+3", "0aF", "#0aF0"],
        accent.resolve (.text text) = .error (.malformedColor text) := by
  obtain ⟨hcolor, hread, -, hcase, hdouble, hresolve⟩ := hexColor_exact
  have hdigits {cs : List Char} (h : cs.all hexDigits.contains = true) : ∀ c ∈ cs, c ∈ hexDigits :=
    fun c hc => List.contains_iff_mem.mp (List.all_eq_true.mp h c hc)
  have hblue : WritesColor "#0aF" 0 170 255 := @WritesColor.three '0' 'a' 'F' (hdigits (by decide))
  refine ⟨(hresolve accent rfl _).1 _ _ _ ((hread _ _ _ _).mpr ⟨0, 170, 255, hblue, ?_, ?_, ?_⟩),
    hcase _ _ (by decide), hdouble '0' 'a' 'F', fun text htext => ?_⟩
  · exact isNearest_byte_iff.mpr rfl
  · exact isNearest_byte_iff.mpr rfl
  · exact isNearest_byte_iff.mpr rfl
  · refine ((hresolve accent rfl text).2 fun h => ?_).2
    obtain ⟨color, h⟩ := (hcolor text).mpr h
    have herror : (["#ééé", "#é12", "#+1+2+3", "0aF", "#0aF0"].all fun text =>
      (hexColor text).toOption.isNone) = true := by decide +kernel
    have := List.all_eq_true.mp herror text htext
    rw [h] at this
    cases this

end NodeShader
