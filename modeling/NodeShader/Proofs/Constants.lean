import NodeShader.Parameter.Resolve
import NodeShader.Proofs.Failure
import NodeShader.Proofs.Numerals

/-!
# The constants that parameters become

A value that a parameter accepts becomes a literal of the parameter's type whose numbers are finite
(`Literal.Suits`, `Parameter.suits_of_resolve`): the checks of the components refuse everything
else, and the channels of a color cannot overflow. Such a literal is written as a constant
of that type (`ParameterType.Writes`), with numerals that have neither an exponent nor letters.

* `resolved_constant`: what a parameter accepts reaches shader text as a well-formed constant.
-/

namespace NodeShader

/-! ## Literals of a type -/

/-- A literal of the type, with finite numbers and with a whole number of 32 bits. -/
inductive Literal.Suits (options : List String) : Literal → ParameterType → Prop where
  | float {x : Single} (h : x.isFinite = true) : Suits options (.float x) .float
  | int {n : Int} (h : fitsSigned 32 n = true) : Suits options (.int n) .int
  | vec2 {x y : Single} (h : ∀ c ∈ [x, y], c.isFinite = true) : Suits options (.vec2 x y) .vec2
  | vec3 {x y z : Single} (h : ∀ c ∈ [x, y, z], c.isFinite = true) :
    Suits options (.vec3 x y z) .vec3
  | vec4 {x y z w : Single} (h : ∀ c ∈ [x, y, z, w], c.isFinite = true) :
    Suits options (.vec4 x y z w) .vec4
  | color {r g b : Single} (h : ∀ c ∈ [r, g, b], c.isFinite = true) :
    Suits options (.color r g b) .color
  | select {option : String} (h : option ∈ options) : Suits options (.select option) .select

/-- A name, and so many numerals in parentheses, with a comma and a space between them. -/
def IsConstructor (name : String) (count : Nat) (text : List Char) : Prop :=
  ∃ numerals : List (List Char), numerals.length = count ∧
    (∀ numeral ∈ numerals, IsFloatNumeral numeral) ∧
    text = name.toList ++ "(".toList ++ ", ".toList.intercalate numerals ++ ")".toList

/-- The texts of constants of a type. -/
inductive ParameterType.Writes (options : List String) : ParameterType → List Char → Prop where
  | float {text : List Char} (h : IsFloatNumeral text) : Writes options .float text
  | int {text : List Char} (h : IsIntNumeral text) : Writes options .int text
  | vec2 {text : List Char} (h : IsConstructor "vec2" 2 text) : Writes options .vec2 text
  | vec3 {text : List Char} (h : IsConstructor "vec3" 3 text) : Writes options .vec3 text
  | vec4 {text : List Char} (h : IsConstructor "vec4" 4 text) : Writes options .vec4 text
  | color {text : List Char} (h : IsConstructor "vec3" 3 text) : Writes options .color text
  | select {option : String} (h : option ∈ options) : Writes options .select option.toList

theorem isConstructor_constructorText (name : String) {components : List Single}
    (h : ∀ c ∈ components, c.isFinite = true) :
    IsConstructor name components.length (constructorText name components).toList := by
  refine ⟨components.map fun c => (floatText c).toList, List.length_map _, ?_, ?_⟩
  · intro numeral hnumeral
    obtain ⟨c, hc, rfl⟩ := List.mem_map.mp hnumeral
    exact isFloatNumeral_floatText (h c hc)
  · simp only [constructorText, String.toList_append, String.toList_intercalate, List.map_map]
    rfl

/-- A literal of a type is written as a constant of that type. -/
theorem Literal.Suits.writes {options : List String} {literal : Literal} {type : ParameterType}
    (h : literal.Suits options type) : type.Writes options literal.toGlsl.toList := by
  cases h with
  | float h => exact .float (isFloatNumeral_floatText h)
  | @int n h => exact .int (isIntNumeral_toString n)
  | vec2 h => exact .vec2 (isConstructor_constructorText "vec2" h)
  | vec3 h => exact .vec3 (isConstructor_constructorText "vec3" h)
  | vec4 h => exact .vec4 (isConstructor_constructorText "vec4" h)
  | color h => exact .color (isConstructor_constructorText "vec3" h)
  | select h => exact .select h

/-! ## Finite numbers -/

theorem narrow_eq_ok {x : Double} {y : Single} (h : narrow x = .ok y) : y.isFinite = true := by
  rw [narrow] at h
  split at h
  next hfinite =>
    cases h
    exact hfinite
  next => cases h

theorem Parameter.components_eq_ok {p : Parameter} {count : Nat} {value : ParameterValue}
    {xs : List Single} (h : p.components count value = .ok xs) :
    ∀ x ∈ xs, x.isFinite = true := by
  cases value with
  | vector items =>
    rw [components] at h
    split at h
    next =>
      intro x hx
      obtain ⟨item, -, hitem⟩ := exists_left_of_forall₂ (mapM_eq_ok.mp h) hx
      obtain ⟨-, -, hnarrow⟩ := bind_eq_ok.mp hitem
      exact narrow_eq_ok hnarrow
    next => cases h
  | _ => cases h

theorem channelByte_le {text : String} {byte : Nat} (h : channelByte text = .ok byte) :
    byte ≤ 255 := by
  simp only [channelByte] at h
  split at h
  next =>
    split at h
    next => cases h
    next hsmall =>
      cases h
      simp only [Bool.or_eq_true, decide_eq_true_eq] at hsmall
      omega
  next => cases h

theorem doubledByte_le {digit : Option Char} {byte : Nat} (h : doubledByte digit = .ok byte) :
    byte ≤ 255 := by
  cases digit with
  | none =>
    cases h
    decide
  | some digit => exact channelByte_le h

theorem channelBytes_le {hex : String} {r g b : Nat} (h : channelBytes hex = .ok (r, g, b)) :
    r ≤ 255 ∧ g ≤ 255 ∧ b ≤ 255 := by
  rw [channelBytes] at h
  split at h
  next =>
    obtain ⟨_, -, h⟩ := bind_eq_ok.mp h
    obtain ⟨_, hr, h⟩ := bind_eq_ok.mp h
    obtain ⟨_, -, h⟩ := bind_eq_ok.mp h
    obtain ⟨_, hg, h⟩ := bind_eq_ok.mp h
    obtain ⟨_, -, h⟩ := bind_eq_ok.mp h
    obtain ⟨_, hb, h⟩ := bind_eq_ok.mp h
    cases h
    exact ⟨channelByte_le hr, channelByte_le hg, channelByte_le hb⟩
  next =>
    obtain ⟨_, hr, h⟩ := bind_eq_ok.mp h
    obtain ⟨_, hg, h⟩ := bind_eq_ok.mp h
    obtain ⟨_, hb, h⟩ := bind_eq_ok.mp h
    cases h
    exact ⟨doubledByte_le hr, doubledByte_le hg, doubledByte_le hb⟩
  next => cases h

/-- The component of a byte is at most one. -/
theorem isFinite_byteComponent {byte : Nat} (h : byte ≤ 255) :
    (byteComponent byte).isFinite = true := by
  have hone : Binary.nearestRank .single 1 1 < BinaryFormat.single.finiteCount := by decide +kernel
  have hle : Binary.nearestRank .single byte 255 ≤ Binary.nearestRank .single 1 1 :=
    Binary.nearestRank_mono (by decide) (by decide) (by decide) (by omega)
  rw [byteComponent, Binary.nearest, Binary.ofRank, dif_pos (Nat.lt_of_le_of_lt hle hone)]
  rfl

theorem hexColor_eq_ok {text : String} {r g b : Single} (h : hexColor text = .ok (r, g, b)) :
    ∀ c ∈ [r, g, b], c.isFinite = true := by
  rw [hexColor] at h
  split at h
  next =>
    split at h
    next =>
      obtain ⟨⟨x, y, z⟩, hbytes, h⟩ := bind_eq_ok.mp h
      cases h
      obtain ⟨hx, hy, hz⟩ := channelBytes_le hbytes
      simp [isFinite_byteComponent, hx, hy, hz]
    next => cases h
  next => cases h

/-! ## Resolved values -/

theorem wholeNumber?_eq_some_iff {x : Double} {n : Int} :
    wholeNumber? x = some n ↔ x.toInt? = some n ∧ fitsSigned 32 n = true := by
  rw [wholeNumber?]
  split
  next m hm =>
    rw [hm, Option.ite_none_right_eq_some, Option.some.injEq]
    constructor
    · rintro ⟨hfits, rfl⟩
      exact ⟨rfl, hfits⟩
    · rintro ⟨rfl, hfits⟩
      exact ⟨hfits, rfl⟩
  next hnone => simp [hnone]

/-- What a parameter accepts becomes a literal of its type. -/
theorem Parameter.suits_of_resolve {p : Parameter} {value : ParameterValue} {literal : Literal}
    (h : p.resolve value = .ok literal) : literal.Suits p.options p.type := by
  unfold resolve at h
  cases htype : p.type <;> simp only [htype] at h
  case float =>
    obtain ⟨_, _, h⟩ := bind_eq_ok.mp h
    obtain ⟨_, hnarrow, h⟩ := bind_eq_ok.mp h
    cases h
    exact .float (narrow_eq_ok hnarrow)
  case int =>
    obtain ⟨_, _, h⟩ := bind_eq_ok.mp h
    split at h
    next hwhole =>
      cases h
      exact .int (wholeNumber?_eq_some_iff.mp hwhole).2
    next => cases h
  case color =>
    cases value with
    | text text =>
      dsimp only at h
      split at h
      next hcolor =>
        cases h
        exact .color (hexColor_eq_ok hcolor)
      next => cases h
    | _ =>
      obtain ⟨_, hcomponents, h⟩ := bind_eq_ok.mp h
      split at h
      next =>
        cases h
        exact .color (components_eq_ok hcomponents)
      next => cases h
  case select =>
    cases value with
    | text text =>
      dsimp only at h
      split at h
      next hmem =>
        cases h
        exact .select (by simpa using hmem)
      next => cases h
    | _ => cases h
  -- the three vectors
  all_goals
    obtain ⟨_, hcomponents, h⟩ := bind_eq_ok.mp h
    split at h
    next =>
      cases h
      constructor
      exact components_eq_ok hcomponents
    next => cases h

/-- What a parameter accepts becomes a literal of its type, without a number that is not finite, and
this literal is written as a constant of the type: numerals have an optional minus, digits and, for
all but whole numbers, a point and digits; a vector is a constructor with as many numerals as
components; and an option stands for itself. -/
theorem resolved_constant {p : Parameter} {value : ParameterValue} {literal : Literal}
    (h : p.resolve value = .ok literal) :
    literal.Suits p.options p.type ∧ p.type.Writes p.options literal.toGlsl.toList :=
  ⟨p.suits_of_resolve h, (p.suits_of_resolve h).writes⟩

/-- A direction without bounds. -/
def direction : Parameter := .vector "direction" (.vec3 (.ofInt 0) (.ofInt 0) (.ofInt 1))

/-- The least positive number, a negative zero and a number between two of single precision. -/
theorem direction_constant :
    ∃ literal, direction.resolve
        (.vector [.nearest false 1 (Nat.pow 2 149), .ofRank true 0, .ofInt 16777217]) =
          .ok literal ∧
      literal.Suits [] .vec3 ∧ ParameterType.vec3.Writes [] literal.toGlsl.toList := by
  have h : direction.resolve
      (.vector [.nearest false 1 (Nat.pow 2 149), .ofRank true 0, .ofInt 16777217]) =
        .ok (.vec3 (.ofRank false 1) (.ofRank true 0) (.ofInt 16777216)) := by decide +kernel
  exact ⟨_, h, resolved_constant h⟩

end NodeShader
