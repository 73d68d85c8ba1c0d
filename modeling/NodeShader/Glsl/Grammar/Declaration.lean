import NodeShader.Glsl.Grammar.Type

/-!
# Declarations
-/

namespace NodeShader.Glsl.Rules

open TextParser

/-- A parameter of a function, with or without a name. -/
def parameter (r : Rules) : TextParser FunctionParameter :=
  choice [
    do
      let qualifiers ← r.optionalQualifiers
      let type ← r.before r.typeSpecifier
      let name ← r.before ident
      let sizes ← maybe r.sizes
      return ⟨qualifiers, type, some (name, sizes.getD [])⟩,
    do
      let qualifiers ← r.optionalQualifiers
      return ⟨qualifiers, ← r.typeSpecifier, none⟩]

def prototype (r : Rules) : TextParser Prototype := do
  let result ← r.before r.fullType
  let name ← r.before ident
  text "("
  let parameters ← separated r.limit (r.after r.parameter) (r.after (text ","))
  r.blank
  commit (text ")")
  return ⟨result, name, parameters⟩

/-- The first name of a declaration. -/
def firstDeclarator (r : Rules) : TextParser Declarator := do
  r.blank
  let (name, sizes) ← r.sizedName
  let value ← maybe do
    r.mark "="
    commit r.initialValue
  return ⟨name, sizes, value⟩

/-- A further name of a declaration. -/
def nextDeclarator (r : Rules) : TextParser Declarator := do
  r.mark ","
  let name ← commit ident
  let sizes ← r.optionalSizes
  let value ← maybe do
    r.mark "="
    r.initialValue
  return ⟨name, sizes, value⟩

/-- A type and the names declared with it; there may be none. -/
def declarators (r : Rules) : TextParser Declaration := do
  let type ← r.fullType
  let first ← maybe r.firstDeclarator
  let others ← many r.limit r.nextDeclarator
  return .declarators type first others

/-- The default precision of a type. -/
def precision (r : Rules) : TextParser Declaration := do
  r.before (keyword "precision")
  let type ← commit do
    let _ ← r.before (keywordOf precisionQualifiers)
    r.before r.typeSpecifier
  text ";"
  return .precision type

/-- A block of fields, possibly with a name of its own. -/
def block (r : Rules) : TextParser Declaration := do
  let qualifiers ← r.before r.qualifiers
  let _ ← r.before ident
  r.before (text "\x7b")
  let fields ← r.fieldList
  commit (r.before (text "\x7d"))
  choice [
    do
      r.after (text ";")
      return .block qualifiers fields none,
    do
      let name ← maybe (r.after r.sizedName)
      r.blank
      commit (text ";")
      return .block qualifiers fields name]

/-- Qualifiers for names that are declared elsewhere. -/
def requalification (r : Rules) : TextParser Declaration := do
  let qualifiers ← r.before r.qualifiers
  let names ← many r.limit do
    r.before (text ",")
    r.before ident
  return .qualifiers qualifiers names

def declaration (r : Rules) : TextParser Declaration :=
  choice [
    do
      let p ← r.prototype
      r.after (text ";")
      return .function p,
    do
      let d ← r.declarators
      r.after (text ";")
      return d,
    r.precision,
    r.block,
    r.requalification]

end NodeShader.Glsl.Rules
