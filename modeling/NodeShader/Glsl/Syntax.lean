/-!
# Syntax trees of shader text

The tree of a shader as far as its checks look at it: names, calls, types and
declarations. Preprocessor directives leave nothing in it but their place.
-/

namespace NodeShader.Glsl

/-- An expression. `index` may leave sizes out, and `callOf` calls what an expression
denotes. -/
inductive Expr where
  | variable (name : String)
  | constant
  | unary (operator : String) (operand : Expr)
  | binary (operator : String) (left right : Expr)
  | conditional (condition yes no : Expr)
  | assignment (operator : String) (target value : Expr)
  | index (operand : Expr) (sizes : List (Option Expr))
  | call (name : String) (arguments : List Expr)
  | callOf (callee : Expr) (arguments : List Expr)
  | member (operand : Expr) (field : String)
  | step (operand : Expr)
  | sequence (first second : Expr)
deriving Repr, Inhabited

/-- The sizes of an array, each possibly left out. -/
abbrev Sizes := List (Option Expr)

/-- A qualifier of a type. A layout keeps the values given in it. -/
inductive Qualifier where
  | named (name : String)
  | subroutine (names : List String)
  | layout (values : List (Option Expr))
deriving Repr

mutual

/-- A type without its sizes: one of the language, a structure, or any other name. -/
inductive BaseType where
  | builtin (name : String)
  | named (name : String)
  | struct (name : Option String) (fields : List Field)

/-- A type with its sizes. -/
inductive TypeSpec where
  | mk (base : BaseType) (sizes : List (Option Expr))

/-- A field of a structure or of a block. -/
inductive Field where
  | mk (qualifiers : List Qualifier) (type : TypeSpec) (names : List (String × List (Option Expr)))

end

def TypeSpec.base : TypeSpec → BaseType
  | mk base _ => base

/-- A type with qualifiers. -/
structure FullType where
  qualifiers : List Qualifier
  type : TypeSpec

inductive Initializer where
  | simple (value : Expr)
  | list (items : List Initializer)

/-- A declared name with its sizes and its initial value. -/
structure Declarator where
  name : String
  sizes : Sizes
  initializer : Option Initializer

/-- A parameter of a function; it may have no name. -/
structure FunctionParameter where
  qualifiers : List Qualifier
  type : TypeSpec
  name : Option (String × Sizes)

structure Prototype where
  result : FullType
  name : String
  parameters : List FunctionParameter

/-- A declaration. A list of declarators may begin with none. -/
inductive Declaration where
  | function (prototype : Prototype)
  | declarators (type : FullType) (first : Option Declarator) (others : List Declarator)
  | precision (type : TypeSpec)
  | block (qualifiers : List Qualifier) (fields : List Field) (name : Option (String × Sizes))
  | qualifiers (qualifiers : List Qualifier) (names : List String)

/-- The condition of a loop. -/
inductive Condition where
  | value (e : Expr)
  | declared (type : FullType) (name : String) (initializer : Initializer)

/-- What a `for` loop begins with. -/
inductive LoopStart where
  | value (e : Option Expr)
  | declared (declaration : Declaration)

inductive Stmt where
  | compound (body : List Stmt)
  | value (e : Option Expr)
  | declared (declaration : Declaration)
  | jump (value : Option Expr)
  | branch (condition : Expr) (yes : Stmt) (no : Option Stmt)
  | switch (head : Expr) (body : List Stmt)
  | label (value : Option Expr)
  | whileLoop (condition : Condition) (body : Stmt)
  | doLoop (body : Stmt) (condition : Expr)
  | forLoop (start : LoopStart) (condition : Option Condition) (next : Option Expr) (body : Stmt)

/-- A declaration at the top of a shader. -/
inductive External where
  | directive
  | function (prototype : Prototype) (body : List Stmt)
  | declaration (declaration : Declaration)

/-- A whole shader. -/
abbrev Program := List External

end NodeShader.Glsl
