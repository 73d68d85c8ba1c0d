import Mathlib.Logic.Basic
import NodeShader.Compiler

/-!
# Floats that begin as vectors

A declaration may stand at the top of a shader, anywhere in the body of a function or at the start
of a `for` loop (`Program.Declares`). The walk over a shader remarks on a `float` that begins as a
vector only where it is the first name of its declaration: no other part of a tree leaves such a
remark (`Program.mem_narrowingsOf`), and each remark becomes an error of its own.

* `narrowings_reported_iff`: the errors are exactly those of the first names, so that every such
  float is reported exactly if none is hidden behind another first name;
* `second_narrowing_unreported`: a `float` that begins as a vector in a shader without errors.
-/

namespace NodeShader.Glsl

/-! ## Where declarations stand -/

/-- The declaration stands somewhere in the statement. -/
inductive Stmt.Declares : Stmt → Declaration → Prop where
  | declared {d : Declaration} : Declares (.declared d) d
  | compound {body : List Stmt} {s : Stmt} {d : Declaration} :
    s ∈ body → s.Declares d → Declares (.compound body) d
  | yes {condition : Expr} {s : Stmt} {no : Option Stmt} {d : Declaration} :
    s.Declares d → Declares (.branch condition s no) d
  | no {condition : Expr} {yes s : Stmt} {d : Declaration} :
    s.Declares d → Declares (.branch condition yes (some s)) d
  | switch {head : Expr} {body : List Stmt} {s : Stmt} {d : Declaration} :
    s ∈ body → s.Declares d → Declares (.switch head body) d
  | whileLoop {condition : Condition} {s : Stmt} {d : Declaration} :
    s.Declares d → Declares (.whileLoop condition s) d
  | doLoop {condition : Expr} {s : Stmt} {d : Declaration} :
    s.Declares d → Declares (.doLoop s condition) d
  | forStart {condition : Option Condition} {next : Option Expr} {body : Stmt} {d : Declaration} :
    Declares (.forLoop (.declared d) condition next body) d
  | forBody {start : LoopStart} {condition : Option Condition} {next : Option Expr} {s : Stmt}
    {d : Declaration} : s.Declares d → Declares (.forLoop start condition next s) d

/-- The declaration stands at the top of a shader or in the body of a function. -/
inductive External.Declares : External → Declaration → Prop where
  | declaration {d : Declaration} : Declares (.declaration d) d
  | function {prototype : Prototype} {body : List Stmt} {s : Stmt} {d : Declaration} :
    s ∈ body → s.Declares d → Declares (.function prototype body) d

/-- The declaration stands somewhere in the shader. -/
def Program.Declares (p : Program) (d : Declaration) : Prop := ∃ e ∈ p, e.Declares d

/-- A name of type `float` whose initial value is directly a call of the vector's constructor. -/
def Declarator.Narrows (type : FullType) (d : Declarator) (vector : String) : Prop :=
  type.type.base = .builtin "float" ∧ vector ∈ ["vec2", "vec3", "vec4"] ∧
    ∃ arguments, d.initializer = some (.simple (.call vector arguments))

/-- A name of some declaration begins as a vector although it is a `float`. -/
def Program.Narrows (p : Program) (name vector : String) : Prop :=
  ∃ type first others d, p.Declares (.declarators type first others) ∧
    (first = some d ∨ d ∈ others) ∧ d.name = name ∧ d.Narrows type vector

/-- The first name of some declaration does. -/
def Program.NarrowsFirst (p : Program) (name vector : String) : Prop :=
  ∃ type d others, p.Declares (.declarators type (some d) others) ∧
    d.name = name ∧ d.Narrows type vector

/-! ## Remarks -/

@[simp] def Mention.narrowing? : Mention → Option (String × String)
  | narrowing name vector => some (name, vector)
  | _ => none

/-- The floats that are remarked upon, with their vectors. -/
def narrowingsOf (ms : List Mention) : List (String × String) := ms.filterMap Mention.narrowing?

@[simp] theorem narrowingsOf_nil : narrowingsOf [] = [] := rfl

@[simp] theorem narrowingsOf_append (ms ms' : List Mention) :
    narrowingsOf (ms ++ ms') = narrowingsOf ms ++ narrowingsOf ms' := List.filterMap_append

@[simp] theorem narrowingsOf_cons (m : Mention) (ms : List Mention) :
    narrowingsOf (m :: ms) = m.narrowing?.toList ++ narrowingsOf ms := by
  cases m <;> rfl

theorem narrowingsOf_flatMap {α : Type} {f : α → List Mention} {xs : List α}
    (h : ∀ x ∈ xs, narrowingsOf (f x) = []) : narrowingsOf (xs.flatMap f) = [] := by
  induction xs with
  | nil => rfl
  | cons x xs ih =>
    obtain ⟨hfirst, hrest⟩ := List.forall_mem_cons.mp h
    rw [List.flatMap_cons, narrowingsOf_append, hfirst, ih hrest, List.append_nil]

/-! ### What is never remarked upon -/

mutual

@[simp] theorem Expr.narrowingsOf_mentions : (e : Expr) → narrowingsOf e.mentions = []
  | .variable _ => rfl
  | .constant => rfl
  | .unary _ e => by simp [Expr.mentions, e.narrowingsOf_mentions]
  | .binary _ left right => by
    simp [Expr.mentions, left.narrowingsOf_mentions, right.narrowingsOf_mentions]
  | .conditional condition yes no => by
    simp [Expr.mentions, condition.narrowingsOf_mentions, yes.narrowingsOf_mentions,
      no.narrowingsOf_mentions]
  | .assignment _ target value => by
    simp [Expr.mentions, target.narrowingsOf_mentions, value.narrowingsOf_mentions]
  | .index e sizes => by
    simp [Expr.mentions, e.narrowingsOf_mentions, narrowingsOf_mentionsOfSizes sizes]
  | .call name arguments => by simp [Expr.mentions, narrowingsOf_mentionsOfList arguments]
  | .callOf callee arguments => by
    have hcallee := callee.narrowingsOf_mentions
    have harguments := narrowingsOf_mentionsOfList arguments
    rw [Expr.mentions.eq_def]
    simp only [narrowingsOf_append, hcallee, harguments]
    cases callee <;> rfl
  | .member e _ => by simp [Expr.mentions, e.narrowingsOf_mentions]
  | .step e => by simp [Expr.mentions, e.narrowingsOf_mentions]
  | .sequence first second => by
    simp [Expr.mentions, first.narrowingsOf_mentions, second.narrowingsOf_mentions]

@[simp] theorem narrowingsOf_mentionsOfList :
    (es : List Expr) → narrowingsOf (mentionsOfList es) = []
  | [] => rfl
  | e :: es => by
    simp [mentionsOfList, e.narrowingsOf_mentions, narrowingsOf_mentionsOfList es]

@[simp] theorem narrowingsOf_mentionsOfSizes :
    (sizes : List (Option Expr)) → narrowingsOf (mentionsOfSizes sizes) = []
  | [] => rfl
  | size :: sizes => by
    simp [mentionsOfSizes, narrowingsOf_mentionsOfOption size, narrowingsOf_mentionsOfSizes sizes]

@[simp] theorem narrowingsOf_mentionsOfOption :
    (e : Option Expr) → narrowingsOf (mentionsOfOption e) = []
  | none => rfl
  | some e => by simp [mentionsOfOption, e.narrowingsOf_mentions]

end

@[simp] theorem narrowingsOf_mentionsOfQualifiers (qualifiers : List Qualifier) :
    narrowingsOf (mentionsOfQualifiers qualifiers) = [] := by
  refine narrowingsOf_flatMap fun q _ => ?_
  cases q with
  | named _ => rfl
  | subroutine _ => rfl
  | layout values => exact narrowingsOf_mentionsOfSizes values

mutual

@[simp] theorem BaseType.narrowingsOf_mentions : (t : BaseType) → narrowingsOf t.mentions = []
  | .builtin _ => rfl
  | .named _ => rfl
  | .struct _ fields => by simp [BaseType.mentions, narrowingsOf_mentionsOfFields fields]

@[simp] theorem TypeSpec.narrowingsOf_mentions : (t : TypeSpec) → narrowingsOf t.mentions = []
  | .mk base sizes => by simp [TypeSpec.mentions, base.narrowingsOf_mentions]

theorem Field.narrowingsOf_mentions : (field : Field) → narrowingsOf field.mentions = []
  | .mk qualifiers type names => by
    rw [Field.mentions, narrowingsOf_append, narrowingsOf_append, type.narrowingsOf_mentions,
      narrowingsOf_flatMap fun name _ => narrowingsOf_mentionsOfSizes name.2]
    simp

@[simp] theorem narrowingsOf_mentionsOfFields :
    (fields : List Field) → narrowingsOf (mentionsOfFields fields) = []
  | [] => rfl
  | field :: fields => by
    simp [mentionsOfFields, field.narrowingsOf_mentions, narrowingsOf_mentionsOfFields fields]

end

@[simp] theorem FullType.narrowingsOf_mentions (t : FullType) : narrowingsOf t.mentions = [] := by
  simp [FullType.mentions]

mutual

@[simp] theorem Initializer.narrowingsOf_mentions :
    (i : Initializer) → narrowingsOf i.mentions = []
  | .simple e => by simp [Initializer.mentions]
  | .list items => by simp [Initializer.mentions, narrowingsOf_mentionsOfItems items]

theorem narrowingsOf_mentionsOfItems :
    (items : List Initializer) → narrowingsOf (mentionsOfItems items) = []
  | [] => rfl
  | item :: items => by
    simp [mentionsOfItems, item.narrowingsOf_mentions, narrowingsOf_mentionsOfItems items]

end

@[simp] theorem Declarator.narrowingsOf_mentions (d : Declarator) :
    narrowingsOf d.mentions = [] := by
  cases hd : d.initializer <;> simp [mentions, hd]

theorem FunctionParameter.narrowingsOf_mentions (p : FunctionParameter) :
    narrowingsOf p.mentions = [] := by
  cases hp : p.name <;> simp [mentions, hp]

@[simp] theorem Prototype.narrowingsOf_mentions (p : Prototype) : narrowingsOf p.mentions = [] := by
  have hparameters : narrowingsOf (p.parameters.flatMap FunctionParameter.mentions) = [] :=
    narrowingsOf_flatMap fun parameter _ => parameter.narrowingsOf_mentions
  simp [mentions, hparameters]

@[simp] theorem Condition.narrowingsOf_mentions (c : Condition) : narrowingsOf c.mentions = [] := by
  cases c <;> simp [mentions]

/-! ### The first name of a declaration -/

theorem Initializer.constructedVector?_eq_some_iff {i : Initializer} {vector : String} :
    i.constructedVector? = some vector ↔
      vector ∈ ["vec2", "vec3", "vec4"] ∧ ∃ arguments, i = .simple (.call vector arguments) := by
  unfold constructedVector?
  split
  next name arguments =>
    rw [Option.ite_none_right_eq_some]
    constructor
    · rintro ⟨hmem, ⟨⟩⟩
      exact ⟨hmem, arguments, rfl⟩
    · rintro ⟨hmem, _, ⟨⟩⟩
      exact ⟨hmem, rfl⟩
  next hcall =>
    constructor
    · intro h
      cases h
    · rintro ⟨-, arguments, rfl⟩
      exact absurd rfl (hcall vector arguments)

theorem Declarator.narrows_iff {type : FullType} {d : Declarator} {vector : String} :
    d.Narrows type vector ↔ type.type.base = .builtin "float" ∧
      d.initializer.bind Initializer.constructedVector? = some vector := by
  rw [Narrows, Option.bind_eq_some_iff]
  refine and_congr_right fun _ => ?_
  constructor
  · rintro ⟨hmem, arguments, hi⟩
    exact ⟨_, hi, Initializer.constructedVector?_eq_some_iff.mpr ⟨hmem, arguments, rfl⟩⟩
  · rintro ⟨i, hi, h⟩
    obtain ⟨hmem, arguments, rfl⟩ := Initializer.constructedVector?_eq_some_iff.mp h
    exact ⟨hmem, arguments, hi⟩

theorem FullType.mem_narrowingsOf_remarks {type : FullType} {d : Declarator}
    {name vector : String} :
    (name, vector) ∈ narrowingsOf (type.remarks d) ↔ d.name = name ∧ d.Narrows type vector := by
  rw [Declarator.narrows_iff]
  cases hbase : type.type.base with
  | struct name fields => simp [remarks, hbase]
  | named unknown => cases huniform : type.isUniform <;> simp [remarks, hbase, huniform]
  | builtin base =>
    by_cases hfloat : base = "float"
    · subst hfloat
      cases hvector : d.initializer.bind Initializer.constructedVector? <;>
        simp [remarks, hbase, hvector, eq_comm]
    · simp [remarks, hbase, hfloat]

theorem narrowingsOf_others (others : List Declarator) :
    narrowingsOf (others.flatMap fun d => .declaration d.name :: d.mentions) = [] :=
  narrowingsOf_flatMap fun d _ => by simp

/-- A declaration is remarked upon for its first name only. -/
theorem Declaration.mem_narrowingsOf {d : Declaration} {name vector : String} :
    (name, vector) ∈ narrowingsOf d.mentions ↔ ∃ type first others,
      d = .declarators type (some first) others ∧ first.name = name ∧
        first.Narrows type vector := by
  cases d with
  | function prototype => simp [mentions]
  | precision type => simp [mentions]
  | qualifiers marks names => simp [mentions]
  | block marks fields instanceName => cases instanceName <;> simp [mentions]
  | declarators type first others =>
    cases first with
    | none => simp [mentions, narrowingsOf_others]
    | some first =>
      simp only [mentions, narrowingsOf_append, narrowingsOf_cons, Mention.narrowing?,
        Option.toList_none, FullType.narrowingsOf_mentions, Declarator.narrowingsOf_mentions,
        narrowingsOf_others, List.append_nil, FullType.mem_narrowingsOf_remarks]
      constructor
      · intro h
        exact ⟨type, first, others, rfl, h⟩
      · rintro ⟨_, _, _, ⟨⟩, h⟩
        exact h

/-! ### Statements and shaders -/

variable {pair : String × String}

/-- The walk over a statement comes to every declaration in it. -/
theorem Stmt.Declares.mem_narrowingsOf {s : Stmt} {d : Declaration} (h : s.Declares d)
    (hpair : pair ∈ narrowingsOf d.mentions) : pair ∈ narrowingsOf s.mentions := by
  have hbody {body : List Stmt} {s : Stmt} (hs : s ∈ body) (h : pair ∈ narrowingsOf s.mentions) :
      pair ∈ narrowingsOf (mentionsOfBody body) := by
    induction hs with
    | head => simp [mentionsOfBody, h]
    | tail _ _ ih => simp [mentionsOfBody, ih]
  induction h with
  | declared => simpa [mentions] using hpair
  | compound hs _ ih => simpa [mentions] using hbody hs (ih hpair)
  | yes _ ih => simp [mentions, ih hpair]
  | no _ ih => simp [mentions, mentionsOfElse, ih hpair]
  | switch hs _ ih => simp [mentions, hbody hs (ih hpair)]
  | whileLoop _ ih => simp [mentions, ih hpair]
  | doLoop _ ih => simp [mentions, ih hpair]
  | forStart => simp [mentions, LoopStart.mentions, hpair]
  | forBody _ ih => simp [mentions, ih hpair]

mutual

/-- Nothing but a declaration in a statement is remarked upon. -/
theorem Stmt.exists_declares : (s : Stmt) → pair ∈ narrowingsOf s.mentions →
    ∃ d, s.Declares d ∧ pair ∈ narrowingsOf d.mentions
  | .compound body, h => by
    rw [Stmt.mentions] at h
    obtain ⟨s, hs, d, hd, hpair⟩ := exists_declares_of_body body h
    exact ⟨d, .compound hs hd, hpair⟩
  | .value e, h => by simp [Stmt.mentions] at h
  | .declared d, h => by
    rw [Stmt.mentions] at h
    exact ⟨d, .declared, h⟩
  | .jump value, h => by simp [Stmt.mentions] at h
  | .branch condition yes no, h => by
    simp only [Stmt.mentions, narrowingsOf_append, Expr.narrowingsOf_mentions, List.nil_append,
      List.mem_append] at h
    rcases h with h | h
    · obtain ⟨d, hd, hpair⟩ := yes.exists_declares h
      exact ⟨d, .yes hd, hpair⟩
    · obtain ⟨s, rfl, d, hd, hpair⟩ := exists_declares_of_else no h
      exact ⟨d, .no hd, hpair⟩
  | .switch head body, h => by
    simp only [Stmt.mentions, narrowingsOf_append, Expr.narrowingsOf_mentions,
      List.nil_append] at h
    obtain ⟨s, hs, d, hd, hpair⟩ := exists_declares_of_body body h
    exact ⟨d, .switch hs hd, hpair⟩
  | .label value, h => by simp [Stmt.mentions] at h
  | .whileLoop condition body, h => by
    simp only [Stmt.mentions, narrowingsOf_append, Condition.narrowingsOf_mentions,
      List.nil_append] at h
    obtain ⟨d, hd, hpair⟩ := body.exists_declares h
    exact ⟨d, .whileLoop hd, hpair⟩
  | .doLoop body condition, h => by
    simp only [Stmt.mentions, narrowingsOf_append, Expr.narrowingsOf_mentions,
      List.append_nil] at h
    obtain ⟨d, hd, hpair⟩ := body.exists_declares h
    exact ⟨d, .doLoop hd, hpair⟩
  | .forLoop start condition next body, h => by
    have hparts : pair ∈ narrowingsOf start.mentions ∨ pair ∈ narrowingsOf body.mentions := by
      cases condition <;> simpa [Stmt.mentions] using h
    rcases hparts with h | h
    · cases start with
      | value e => simp [LoopStart.mentions] at h
      | declared d => exact ⟨d, .forStart, h⟩
    · obtain ⟨d, hd, hpair⟩ := body.exists_declares h
      exact ⟨d, .forBody hd, hpair⟩

theorem exists_declares_of_body :
    (body : List Stmt) → pair ∈ narrowingsOf (mentionsOfBody body) →
      ∃ s ∈ body, ∃ d, s.Declares d ∧ pair ∈ narrowingsOf d.mentions
  | [], h => by cases h
  | s :: body, h => by
    rw [mentionsOfBody, narrowingsOf_append, List.mem_append] at h
    rcases h with h | h
    · exact ⟨s, List.mem_cons_self, s.exists_declares h⟩
    · obtain ⟨s, hs, hd⟩ := exists_declares_of_body body h
      exact ⟨s, List.mem_cons_of_mem _ hs, hd⟩

theorem exists_declares_of_else :
    (no : Option Stmt) → pair ∈ narrowingsOf (mentionsOfElse no) →
      ∃ s, no = some s ∧ ∃ d, s.Declares d ∧ pair ∈ narrowingsOf d.mentions
  | none, h => by cases h
  | some s, h => by
    rw [mentionsOfElse] at h
    exact ⟨s, rfl, s.exists_declares h⟩

end

theorem Program.mem_narrowingsOf {p : Program} :
    pair ∈ narrowingsOf p.mentions ↔ ∃ d, p.Declares d ∧ pair ∈ narrowingsOf d.mentions := by
  have hflat : narrowingsOf p.mentions = p.flatMap fun e => narrowingsOf e.mentions :=
    List.filterMap_flatMap
  rw [hflat, List.mem_flatMap]
  constructor
  · rintro ⟨e, he, hpair⟩
    cases e with
    | directive => cases hpair
    | declaration d => exact ⟨d, ⟨_, he, .declaration⟩, hpair⟩
    | function prototype body =>
      simp only [External.mentions, narrowingsOf_append, Prototype.narrowingsOf_mentions,
        List.nil_append] at hpair
      obtain ⟨s, hs, d, hd, hpair⟩ := exists_declares_of_body body hpair
      exact ⟨d, ⟨_, he, .function hs hd⟩, hpair⟩
  · rintro ⟨d, ⟨e, he, hd⟩, hpair⟩
    refine ⟨e, he, ?_⟩
    cases hd with
    | declaration => exact hpair
    | function hs hd =>
      -- the body of a function is that of a compound statement
      have hbody := (Stmt.Declares.compound hs hd).mem_narrowingsOf hpair
      rw [Stmt.mentions] at hbody
      rw [External.mentions, narrowingsOf_append]
      exact List.mem_append_right _ hbody

/-- A shader is remarked upon for the first names of its declarations. -/
theorem Program.mem_narrowingsOf_iff {p : Program} {name vector : String} :
    (name, vector) ∈ narrowingsOf p.mentions ↔ p.NarrowsFirst name vector := by
  rw [mem_narrowingsOf]
  constructor
  · rintro ⟨_, hd, hpair⟩
    obtain ⟨type, first, others, rfl, hfirst⟩ := Declaration.mem_narrowingsOf.mp hpair
    exact ⟨type, first, others, hd, hfirst⟩
  · rintro ⟨type, first, others, hd, hfirst⟩
    exact ⟨_, hd, Declaration.mem_narrowingsOf.mpr ⟨type, first, others, rfl, hfirst⟩⟩

/-! ## Errors -/

theorem Scope.narrowings_mention (s : Scope) (m : Mention) :
    (s.mention m).narrowings = s.narrowings ++ narrowingsOf [m] := by
  cases m with
  | use name =>
    rw [mention]
    split <;> exact (List.append_nil _).symm
  | call name =>
    rw [mention]
    split <;> exact (List.append_nil _).symm
  | narrowing name vector => rfl
  | _ => exact (List.append_nil _).symm

theorem Scope.narrowings_foldl (ms : List Mention) (s : Scope) :
    (ms.foldl mention s).narrowings = s.narrowings ++ narrowingsOf ms := by
  induction ms generalizing s with
  | nil => simp
  | cons m ms ih =>
    rw [List.foldl_cons, ih, narrowings_mention, List.append_assoc, ← narrowingsOf_append,
      List.singleton_append]

theorem Scope.narrowings_ofMentions (ms : List Mention) :
    (ofMentions ms).narrowings = narrowingsOf ms := narrowings_foldl ms {}

/-- The error about a `float` that begins as a vector. -/
def narrowingError (name vector : String) : Diagnostic :=
  errorDiagnostic s!"float '{name}' initialized with {vector}"

theorem toList_narrowingError (name vector : String) :
    (narrowingError name vector).message.toList =
      "float '".toList ++ name.toList ++ "' initialized with ".toList ++ vector.toList := by
  simp only [narrowingError, errorDiagnostic, String.toList_append, toString, List.append_assoc]

/-- The error tells the name and the vector. -/
theorem narrowingError_inj {name name' vector vector' : String}
    (hv : vector ∈ ["vec2", "vec3", "vec4"]) (hv' : vector' ∈ ["vec2", "vec3", "vec4"])
    (h : narrowingError name vector = narrowingError name' vector') :
    name = name' ∧ vector = vector' := by
  have hlength : ∀ v ∈ ["vec2", "vec3", "vec4"], v.toList.length = 4 := by decide
  have hchars := congrArg (fun d : Diagnostic => d.message.toList) h
  simp only [toList_narrowingError] at hchars
  obtain ⟨hstart, hvector⟩ :=
    List.append_inj' hchars ((hlength vector hv).trans (hlength vector' hv').symm)
  obtain ⟨hstart, -⟩ := List.append_inj' hstart rfl
  exact ⟨String.toList_inj.mp (List.append_cancel_left hstart), String.toList_inj.mp hvector⟩

theorem narrowingError_ne_entryPoint (name vector : String) :
    narrowingError name vector ≠
      errorDiagnostic "missing entry point: expected main or mainImage" := by
  intro h
  have hchars := congrArg (fun d : Diagnostic => d.message.toList.head?) h
  simp [toList_narrowingError, errorDiagnostic] at hchars

theorem narrowingError_ne_warning (name vector message : String) :
    narrowingError name vector ≠ warningDiagnostic message := by
  intro h
  cases congrArg Diagnostic.kind h

theorem Scope.narrowingError_mem_iff {s : Scope} {name vector : String} :
    narrowingError name vector ∈ s.diagnostics ↔
      ∃ pair ∈ s.narrowings, narrowingError pair.1 pair.2 = narrowingError name vector := by
  have hwarning {α : Type} (xs : List α) (message : α → String) :
      narrowingError name vector ∉ xs.map fun x => warningDiagnostic (message x) := by
    intro hmem
    obtain ⟨x, -, hx⟩ := List.mem_map.mp hmem
    exact narrowingError_ne_warning name vector _ hx.symm
  simp only [diagnostics, List.mem_append, hwarning, or_false]
  exact List.mem_map

/-- The errors about floats are those of the first names of declarations. -/
theorem Program.narrowingError_mem_iff {p : Program} {name vector : String}
    (hv : vector ∈ ["vec2", "vec3", "vec4"]) :
    narrowingError name vector ∈ p.report.diagnostics ↔ p.NarrowsFirst name vector := by
  have hentry : narrowingError name vector ∉ (if p.hasEntryPoint then []
      else [errorDiagnostic "missing entry point: expected main or mainImage"]) := by
    split
    · exact List.not_mem_nil
    · simpa using narrowingError_ne_entryPoint name vector
  rw [report, List.mem_append, or_iff_right hentry, Scope.narrowingError_mem_iff,
    Scope.narrowings_ofMentions]
  constructor
  · rintro ⟨⟨name', vector'⟩, hmem, heq⟩
    have hfirst := mem_narrowingsOf_iff.mp hmem
    obtain ⟨-, -, -, -, -, -, hv', -⟩ := id hfirst
    obtain ⟨rfl, rfl⟩ := narrowingError_inj hv' hv heq
    exact hfirst
  · intro hfirst
    exact ⟨(name, vector), mem_narrowingsOf_iff.mpr hfirst, rfl⟩

theorem narrowingError_isError (name vector : String) :
    (narrowingError name vector).isError = true := rfl

/-- The text of a shader that is neither blank nor badly nested, and the tree that a parser makes
of it. -/
structure Parsed (parse : Parser) (source : String) (p : Program) : Prop where
  notBlank : blankText source = false
  nested : bracketFault? source = none
  tree : parse source = .ok p

theorem Parsed.checkSource_eq {parse : Parser} {source : String} {p : Program}
    (h : Parsed parse source p) : checkSource parse source = p.report := by
  simp [checkSource, h.notBlank, h.nested, h.tree]

/-- Whatever tree a parser makes of a shader, the check reports a `float` that begins as a vector
exactly if it is the first name of its declaration. So all such floats are reported if and only if
each of them has the name and the vector of one that is the first of its declaration. -/
theorem narrowings_reported_iff {parse : Parser} {source : String} {p : Program}
    (h : Parsed parse source p) :
    (∀ name, ∀ vector ∈ ["vec2", "vec3", "vec4"],
      narrowingError name vector ∈ (checkSource parse source).diagnostics ↔
        p.NarrowsFirst name vector) ∧
    ((∀ name vector, p.Narrows name vector →
        narrowingError name vector ∈ (checkSource parse source).diagnostics ∧
          errorsOf (checkSource parse source).diagnostics ≠ []) ↔
      ∀ name vector, p.Narrows name vector → p.NarrowsFirst name vector) := by
  rw [h.checkSource_eq]
  refine ⟨fun name vector hv => p.narrowingError_mem_iff hv, ?_⟩
  refine forall₂_congr fun name vector => forall_congr' fun hnarrows => ?_
  have hv : vector ∈ ["vec2", "vec3", "vec4"] := by
    obtain ⟨-, -, -, -, -, -, -, -, hv, -⟩ := hnarrows
    exact hv
  rw [← p.narrowingError_mem_iff hv, and_iff_left_iff_imp]
  intro hmem
  exact List.ne_nil_of_mem (List.mem_filter.mpr ⟨hmem, narrowingError_isError name vector⟩)

theorem Parser.grammar_eq_ok {source : String} {p : Program} (h : parse? source = some p) :
    Parser.grammar source = .ok p := by
  rw [grammar, h]

/-- A shader whose only float begins as a vector, at the start of a loop. -/
def loopSource : String := "void main() {for (float i = vec2(0.0); ; ) {}}"

theorem loopSource_narrowing_reported :
    ∃ p, Parsed .grammar loopSource p ∧ p.NarrowsFirst "i" "vec2" := by
  obtain ⟨p, hp⟩ : ∃ p, parse? loopSource = some p :=
    Option.isSome_iff_exists.mp (by decide +kernel)
  have hparsed : Parsed .grammar loopSource p :=
    ⟨by decide +kernel, by decide +kernel, Parser.grammar_eq_ok hp⟩
  refine ⟨p, hparsed, ((narrowings_reported_iff hparsed).1 "i" "vec2" (by decide)).mp ?_⟩
  decide +kernel

/-- A shader that declares two floats, of which the second begins as a vector. -/
def pairSource : String := "void main() {float y, x = vec4(1.0);}"

/-- Whether a shader declares `x` behind another name, a `float` that begins as a `vec4`. -/
def declaresPair : Program → Bool
  | [.function _ [.declared (.declarators ⟨_, .mk (.builtin "float") _⟩ _
      [⟨"x", _, some (.simple (.call "vec4" _))⟩])]] => true
  | _ => false

theorem narrows_of_declaresPair {p : Program} (h : declaresPair p = true) :
    p.Narrows "x" "vec4" := by
  unfold declaresPair at h
  split at h
  next =>
    exact ⟨_, _, _, _,
      ⟨_, List.mem_singleton_self _, .function (List.mem_singleton_self _) .declared⟩,
      .inr (List.mem_singleton_self _), rfl, rfl, by decide, _, rfl⟩
  next => cases h

/-- A `float` that begins as a vector is not reported, nor is anything else. -/
theorem second_narrowing_unreported :
    ∃ p, Parsed .grammar pairSource p ∧ p.Narrows "x" "vec4" ∧
      (checkSource .grammar pairSource).diagnostics = [] := by
  obtain ⟨p, hp, hpair⟩ : ∃ p, parse? pairSource = some p ∧ declaresPair p = true :=
    (Option.any_eq_true _ _).mp (by decide +kernel)
  have hparsed : Parsed .grammar pairSource p :=
    ⟨by decide +kernel, by decide +kernel, Parser.grammar_eq_ok hp⟩
  exact ⟨p, hparsed, narrows_of_declaresPair hpair, by decide +kernel⟩

end NodeShader.Glsl
