import NodeShader.Glsl.Grammar.Directive
import NodeShader.Glsl.Grammar.Statement

/-!
# Whole shaders

`parse?` reads the declarations at the top of a shader. What follows the last of them is
ignored.
-/

namespace NodeShader.Glsl

namespace Rules

open TextParser

/-- The definition of a function. -/
def function (r : Rules) : TextParser External := do
  let p ← r.before r.prototype
  return .function p (← r.compound)

/-- A declaration at the top of a shader. A semicolon may stand in front of it. -/
def externalDeclaration (r : Rules) : TextParser External :=
  choice [
    do
      Directive.directive r.limit
      return .directive,
    r.function,
    do return .declaration (← r.declaration),
    do
      r.mark ";"
      commit r.external]

/-- The rules for longer texts, from the rules for shorter ones. -/
def grow (r : Rules) : Rules where
  limit := r.limit + 1
  expr := r.expression
  assignment := r.assignmentExpr
  conditional := r.conditionalExpr
  unary := r.unaryExpr
  initializer := r.initialValue
  typeSpec := r.typeSpecifier
  stmt := r.statement
  external := r.externalDeclaration

/-- The rules for texts of fewer than `length` characters. -/
def upTo : (length : Nat) → Rules
  | 0 => empty
  | length + 1 => grow (upTo length)

/-- The declarations of a shader, at least one. -/
def program (r : Rules) : TextParser Program := many1 r.limit (r.after (r.before r.external))

end Rules

/-- The tree of a shader. -/
def parse? (source : String) : Option Program :=
  let cs := source.toList
  match (Rules.upTo (cs.length + 3)).program cs with
  | .done program _ => some program
  | _ => none

end NodeShader.Glsl
