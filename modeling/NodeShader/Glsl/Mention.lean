import NodeShader.Glsl.Syntax

/-!
# The names that a shader mentions

`Program.mentions` lists, in the order of the text, where a shader declares, uses and calls
names. There is one scope for the whole shader.
-/

namespace NodeShader.Glsl

/-- What a shader does with a name.

* `uniform` and `narrowing` stand before the declaration that they are about: a uniform whose
  type is not one of the language, and a `float` whose initial value is a vector;
* `callee` stands before the call of what a parenthesised name denotes. -/
inductive Mention where
  | declaration (name : String)
  | function (name : String)
  | use (name : String)
  | call (name : String)
  | callee (name : String)
  | uniform (name type : String)
  | narrowing (name constructor : String)
deriving DecidableEq, Repr

mutual

def Expr.mentions : Expr → List Mention
  | .variable name => [.use name]
  | .constant => []
  | .unary _ e => e.mentions
  | .binary _ left right => left.mentions ++ right.mentions
  | .conditional condition yes no => condition.mentions ++ yes.mentions ++ no.mentions
  | .assignment _ target value => target.mentions ++ value.mentions
  | .index e sizes => e.mentions ++ mentionsOfSizes sizes
  | .call name arguments => .call name :: mentionsOfList arguments
  | .callOf callee arguments =>
    (match callee with
      | .variable name => [.callee name, .call name]
      | _ => []) ++ callee.mentions ++ mentionsOfList arguments
  | .member e _ => e.mentions
  | .step e => e.mentions
  | .sequence first second => first.mentions ++ second.mentions

def mentionsOfList : List Expr → List Mention
  | [] => []
  | e :: es => e.mentions ++ mentionsOfList es

def mentionsOfSizes : List (Option Expr) → List Mention
  | [] => []
  | size :: sizes => mentionsOfOption size ++ mentionsOfSizes sizes

def mentionsOfOption : Option Expr → List Mention
  | none => []
  | some e => e.mentions

end

def Qualifier.mentions : Qualifier → List Mention
  | named _ => []
  | subroutine _ => []
  | layout values => mentionsOfSizes values

def mentionsOfQualifiers (qualifiers : List Qualifier) : List Mention :=
  qualifiers.flatMap Qualifier.mentions

mutual

def BaseType.mentions : BaseType → List Mention
  | .builtin _ => []
  | .named _ => []
  | .struct _ fields => mentionsOfFields fields

def TypeSpec.mentions : TypeSpec → List Mention
  | .mk base sizes => base.mentions ++ mentionsOfSizes sizes

def Field.mentions : Field → List Mention
  | .mk qualifiers type names =>
    mentionsOfQualifiers qualifiers ++ type.mentions ++
      names.flatMap fun (_, sizes) => mentionsOfSizes sizes

def mentionsOfFields : List Field → List Mention
  | [] => []
  | field :: fields => field.mentions ++ mentionsOfFields fields

end

def FullType.mentions (t : FullType) : List Mention :=
  mentionsOfQualifiers t.qualifiers ++ t.type.mentions

mutual

def Initializer.mentions : Initializer → List Mention
  | .simple e => e.mentions
  | .list items => mentionsOfItems items

def mentionsOfItems : List Initializer → List Mention
  | [] => []
  | item :: items => item.mentions ++ mentionsOfItems items

end

/-- The sizes and the initial value of a declared name. -/
def Declarator.mentions (d : Declarator) : List Mention :=
  mentionsOfSizes d.sizes ++ (match d.initializer with
    | none => []
    | some initializer => initializer.mentions)

/-- A parameter declares its name, if it has one. -/
def FunctionParameter.mentions (p : FunctionParameter) : List Mention :=
  mentionsOfQualifiers p.qualifiers ++
    match p.name with
    | none => p.type.mentions
    | some (name, sizes) => .declaration name :: p.type.mentions ++ mentionsOfSizes sizes

def Prototype.mentions (p : Prototype) : List Mention :=
  .function p.name :: p.result.mentions ++ p.parameters.flatMap FunctionParameter.mentions

def FullType.isUniform (t : FullType) : Bool :=
  t.qualifiers.any fun
    | .named name => name == "uniform"
    | _ => false

/-- The vector that an initial value constructs. -/
def Initializer.constructedVector? : Initializer → Option String
  | simple (.call name _) => if name ∈ ["vec2", "vec3", "vec4"] then some name else none
  | _ => none

/-- What stands out about the first name of a declaration. -/
def FullType.remarks (t : FullType) (d : Declarator) : List Mention :=
  (match t.type.base with
    | .named type => if t.isUniform then [.uniform d.name type] else []
    | _ => []) ++
  match t.type.base, d.initializer.bind Initializer.constructedVector? with
  | .builtin "float", some vector => [.narrowing d.name vector]
  | _, _ => []

/-- A name is declared before its own initial value; only the first name of a declaration is
remarked upon. -/
def Declaration.mentions : Declaration → List Mention
  | function prototype => prototype.mentions
  | declarators type first others =>
    (match first with
      | none => type.mentions
      | some d => type.remarks d ++ .declaration d.name :: type.mentions ++ d.mentions) ++
      others.flatMap fun d => .declaration d.name :: d.mentions
  | precision type => type.mentions
  | block marks fields name =>
    mentionsOfQualifiers marks ++ mentionsOfFields fields ++
      (match name with
        | none => []
        | some (_, sizes) => mentionsOfSizes sizes)
  | qualifiers marks _ => mentionsOfQualifiers marks

/-- The name of a condition is not declared by it. -/
def Condition.mentions : Condition → List Mention
  | value e => e.mentions
  | declared type _ initializer => type.mentions ++ initializer.mentions

def LoopStart.mentions : LoopStart → List Mention
  | value e => mentionsOfOption e
  | declared declaration => declaration.mentions

mutual

def Stmt.mentions : Stmt → List Mention
  | .compound body => mentionsOfBody body
  | .value e => mentionsOfOption e
  | .declared declaration => declaration.mentions
  | .jump value => mentionsOfOption value
  | .branch condition yes no => condition.mentions ++ yes.mentions ++ mentionsOfElse no
  | .switch head body => head.mentions ++ mentionsOfBody body
  | .label value => mentionsOfOption value
  | .whileLoop condition body => condition.mentions ++ body.mentions
  | .doLoop body condition => body.mentions ++ condition.mentions
  | .forLoop start condition next body =>
    start.mentions ++ (match condition with
      | none => []
      | some condition => condition.mentions) ++ mentionsOfOption next ++ body.mentions

def mentionsOfBody : List Stmt → List Mention
  | [] => []
  | s :: body => s.mentions ++ mentionsOfBody body

def mentionsOfElse : Option Stmt → List Mention
  | none => []
  | some s => s.mentions

end

def External.mentions : External → List Mention
  | directive => []
  | function prototype body => prototype.mentions ++ mentionsOfBody body
  | declaration d => d.mentions

/-- What a shader does with names, in the order of its text. -/
def Program.mentions (p : Program) : List Mention := p.flatMap External.mentions

/-- Whether a shader defines one of the functions that it may begin with. -/
def Program.hasEntryPoint (p : Program) : Bool :=
  p.any fun
    | .function prototype _ => prototype.name == "main" || prototype.name == "mainImage"
    | _ => false

end NodeShader.Glsl
