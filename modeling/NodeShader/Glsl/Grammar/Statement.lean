import NodeShader.Glsl.Grammar.Declaration

/-!
# Statements
-/

namespace NodeShader.Glsl.Rules

open TextParser

/-- Statements between braces. -/
def compound (r : Rules) : TextParser (List Stmt) := do
  r.before (text "\x7b")
  let body ← many r.limit (r.before r.stmt)
  commit (text "\x7d")
  return body

/-- An expression that may be missing, and a semicolon. -/
def valueStmt (r : Rules) : TextParser (Option Expr) := do
  let e ← maybe r.expression
  r.after (text ";")
  return e

def jump (r : Rules) : TextParser Stmt :=
  choice [
    do
      let _ ← keywordOf ["continue", "break", "discard"]
      commit (r.after (text ";"))
      return .jump none,
    do
      r.before (keyword "return")
      let value ← maybe (r.before r.expression)
      commit (text ";")
      return .jump value]

/-- An expression between parentheses, after a keyword. -/
def head (r : Rules) : TextParser Expr := do
  commit (r.before (text "("))
  let e ← commit (r.before r.expression)
  commit (r.before (text ")"))
  return e

def branch (r : Rules) : TextParser Stmt := do
  r.before (keyword "if")
  let condition ← r.head
  let yes ← commit r.stmt
  let no ← maybe do
    r.blank
    r.before (keyword "else")
    commit r.stmt
  return .branch condition yes no

def switch (r : Rules) : TextParser Stmt := do
  r.before (keyword "switch")
  let head ← r.head
  return .switch head (← commit r.compound)

def label (r : Rules) : TextParser Stmt :=
  choice [
    do
      r.before (keyword "case")
      let value ← commit (r.before r.expression)
      commit (text ":")
      return .label (some value),
    do
      r.before (keyword "default")
      text ":"
      return .label none]

/-- The condition of a loop. -/
def condition (r : Rules) : TextParser Condition :=
  choice [
    do return .value (← r.expression),
    do
      let type ← r.before r.fullType
      let name ← ident
      r.mark "="
      return .declared type name (← commit r.initialValue)]

def whileLoop (r : Rules) : TextParser Stmt := do
  r.before (keyword "while")
  commit (r.before (text "("))
  let condition ← commit (r.before r.condition)
  commit (r.before (text ")"))
  return .whileLoop condition (← commit r.stmt)

def doLoop (r : Rules) : TextParser Stmt := do
  r.before (keyword "do")
  let body ← commit (r.before r.stmt)
  commit (r.before (keyword "while"))
  let condition ← r.head
  commit (text ";")
  return .doLoop body condition

/-- What a `for` loop begins with. -/
def loopStart (r : Rules) : TextParser LoopStart :=
  choice [
    do return .value (← r.valueStmt),
    do return .declared (← r.declaration)]

def forLoop (r : Rules) : TextParser Stmt := do
  r.before (keyword "for")
  commit do
    r.before (text "(")
    let start ← r.before r.loopStart
    let condition ← maybe (r.before r.condition)
    r.before (text ";")
    let next ← maybe r.expression
    r.blank
    r.before (text ")")
    return .forLoop start condition next (← r.stmt)

def statement (r : Rules) : TextParser Stmt :=
  choice [
    do return .compound (← r.compound),
    r.jump,
    r.whileLoop,
    r.doLoop,
    r.forLoop,
    r.label,
    r.switch,
    r.branch,
    do return .declared (← r.declaration),
    do return .value (← r.valueStmt)]

end NodeShader.Glsl.Rules
