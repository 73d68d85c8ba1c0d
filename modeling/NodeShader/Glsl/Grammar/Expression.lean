import NodeShader.Glsl.Grammar.Rules

/-!
# Expressions
-/

namespace NodeShader.Glsl.Rules

open TextParser

/-- The sizes of an array in brackets, at least one; a size may be left out. -/
def sizes (r : Rules) : TextParser Sizes :=
  many1 r.limit <| r.after <| r.before <|
    choice [
      do
        r.before (text "[")
        text "]"
        return none,
      do
        r.before (text "[")
        let size ← r.before (commit r.conditional)
        commit (text "]")
        return some size]

/-- The arguments of a call. -/
def arguments (r : Rules) : TextParser (List Expr) := do
  r.mark "("
  choice [
    do
      r.blank
      let _ ← maybe (keyword "void")
      r.blank
      text ")"
      return [],
    do
      let values ← separated r.limit (commit (r.before r.assignment)) (r.before (text ","))
      commit (text ")")
      return values]

/-- An expression between parentheses. -/
def parenthesized (r : Rules) : TextParser Expr := do
  r.before (text "(")
  let e ← r.before r.expr
  commit (text ")")
  return e

/-- A number or a truth value. -/
def constant : TextParser Expr := do
  choice [floatConstant, doubleConstant, unsignedConstant, integerConstant, keyword "true",
    keyword "false"]
  return .constant

def variableExpr : TextParser Expr := do return .variable (← ident)

def primary (r : Rules) : TextParser Expr := choice [r.parenthesized, constant, variableExpr]

/-- The indices, members and steps that follow an operand. -/
def selections (r : Rules) (operand : Expr) : TextParser Expr :=
  follow r.limit operand fun e =>
    r.after <| choice [
      do return .index e (← r.sizes),
      do
        r.before (text ".")
        return .member e (← commit ident),
      do
        let _ ← oneOf ["++", "--"]
        return .step e]

/-- A call by name, or an operand that may be called. -/
def callOrOperand (r : Rules) : TextParser Expr :=
  choice [
    do
      let name ← r.before ident
      return .call name (← r.arguments),
    do
      let e ← r.primary
      let e ← r.selections e
      match ← maybe r.arguments with
      | some arguments => return .callOf e arguments
      | none => return e]

/-- An operand with what follows it. -/
def operand (r : Rules) : TextParser Expr := do
  let e ← r.callOrOperand
  r.selections e

/-- An operand with the operators in front of it. -/
def unaryExpr (r : Rules) : TextParser Expr :=
  choice [
    do
      let operator ← r.before (oneOf ["++", "--", "+", "-", "!", "~"])
      return .unary operator (← r.unary),
    r.operand]

/-- The operators between two operands, the loosest first. -/
def binaryOperators : List (List String) :=
  [["||"], ["^^"], ["&&"], ["|"], ["^"], ["&"], ["==", "!="], ["<=", ">=", "<", ">"], ["<<", ">>"],
    ["+", "-"], ["*", "/", "%"]]

/-- A chain of operators of these strengths, whose first operand is read already. -/
def chain (r : Rules) (first : Expr) : (operators : List (List String)) → TextParser Expr
  | [] => return first
  | loosest :: tighter => do
    let left ← r.chain first tighter
    follow r.limit left fun left => do
      r.blank
      let operator ← r.before (oneOf loosest)
      let operand ← r.unaryExpr
      return .binary operator left (← r.chain operand tighter)

/-- A conditional expression, whose first operand is read already. -/
def conditionalFrom (r : Rules) (first : Expr) : TextParser Expr := do
  let condition ← r.chain first binaryOperators
  follow r.limit condition fun condition => do
    r.mark "?"
    let yes ← commit (r.before r.expr)
    commit (r.before (text ":"))
    return .conditional condition yes (← commit r.assignment)

def conditionalExpr (r : Rules) : TextParser Expr := do
  let first ← r.unaryExpr
  r.conditionalFrom first

def assignmentOperators : List String :=
  ["=", "*=", "/=", "%=", "+=", "-=", "<<=", ">>=", "&=", "^=", "|="]

/-- An assignment, or a conditional expression. -/
def assignmentExpr (r : Rules) : TextParser Expr := do
  let first ← r.unaryExpr
  choice [
    do
      r.blank
      let operator ← r.before (oneOf assignmentOperators)
      return .assignment operator first (← r.assignment),
    r.conditionalFrom first]

/-- Assignments separated by commas; no blank may stand before a comma. -/
def expression (r : Rules) : TextParser Expr := do
  let first ← r.assignmentExpr
  choice [
    do
      r.before (text ",")
      return .sequence first (← r.expr),
    return first]

/-- The initial value of a declared name. -/
def initialValue (r : Rules) : TextParser Initializer :=
  choice [
    do return .simple (← r.assignmentExpr),
    do
      r.before (text "\x7b")
      let items ← separated r.limit r.initializer (r.mark ",")
      r.blank
      let _ ← maybe (r.before (text ","))
      commit (text "\x7d")
      return .list items]

end NodeShader.Glsl.Rules
