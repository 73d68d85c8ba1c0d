import NodeShader.Glsl.Grammar.Expression

/-!
# Types and qualifiers
-/

namespace NodeShader.Glsl

/-- The names of the types of the language. -/
def builtinTypes : List String :=
  let sizes := ["2", "3", "4"]
  let vectors := ["", "b", "i", "u", "d"].flatMap fun k => sizes.map fun n => k ++ "vec" ++ n
  let shapes := sizes ++ sizes.flatMap fun n => sizes.map fun m => n ++ "x" ++ m
  let matrices := ["", "d"].flatMap fun k => shapes.map fun shape => k ++ "mat" ++ shape
  let textures := ["1D", "2D", "3D", "Cube", "2DRect", "1DArray", "2DArray", "Buffer", "2DMS",
    "2DMSArray", "CubeArray"]
  let images := ["sampler", "image"].flatMap fun kind =>
    ["", "i", "u"].flatMap fun k => textures.map fun texture => k ++ kind ++ texture
  let shadows := ["1D", "2D", "2DRect", "1DArray", "2DArray", "Cube", "CubeArray"].map fun texture =>
    "sampler" ++ texture ++ "Shadow"
  ["void", "bool", "int", "uint", "float", "double", "atomic_uint"] ++ vectors ++ matrices ++
    images ++ shadows

/-- The qualifiers that are single words. -/
def plainQualifiers : List String :=
  ["const", "inout", "in", "out", "centroid", "patch", "sample", "uniform", "attribute", "varying",
    "buffer", "shared", "coherent", "volatile", "restrict", "readonly", "writeonly", "smooth", "flat",
    "noperspective", "invariant", "precise"]

def precisionQualifiers : List String := ["highp", "mediump", "lowp"]

namespace Rules

open TextParser

/-- The qualifier for subroutines, possibly with the names of subroutine types. -/
def subroutine (r : Rules) : TextParser Qualifier := do
  keyword "subroutine"
  let names ← maybe do
    r.mark "("
    let names ← separated r.limit (r.before ident) (r.before (text ","))
    r.blank
    commit (text ")")
    return names
  return .subroutine (names.getD [])

/-- One identifier of a layout, with its value if it has one. -/
def layoutItem (r : Rules) : TextParser (Option Expr) :=
  choice [
    do
      keyword "shared"
      return none,
    do
      let _ ← ident
      r.mark "="
      return some (← r.conditional),
    do
      let _ ← ident
      return none]

def layout (r : Rules) : TextParser Qualifier := do
  keyword "layout"
  r.mark "("
  let items ← separated r.limit (r.before r.layoutItem) (r.before (text ","))
  commit (text ")")
  return .layout items

def qualifier (r : Rules) : TextParser Qualifier :=
  choice [
    do return .named (← keywordOf (plainQualifiers ++ precisionQualifiers)),
    r.subroutine,
    r.layout]

/-- Qualifiers, at least one. -/
def qualifiers (r : Rules) : TextParser (List Qualifier) := many1 r.limit (r.before r.qualifier)

/-- Qualifiers that may be missing. -/
def optionalQualifiers (r : Rules) : TextParser (List Qualifier) := do
  return (← maybe (r.before r.qualifiers)).getD []

/-- The sizes after a name, if there are any. -/
def optionalSizes (r : Rules) : TextParser Sizes := do
  return (← maybe (r.after r.sizes)).getD []

/-- A name with its sizes. -/
def sizedName (r : Rules) : TextParser (String × Sizes) := do
  let name ← ident
  return (name, ← r.optionalSizes)

/-- A field of a structure or of a block. -/
def field (r : Rules) : TextParser Field := do
  let qualifiers ← r.optionalQualifiers
  let type ← r.before r.typeSpec
  let names ← separated r.limit (r.before r.sizedName) (r.before (text ","))
  commit (text ";")
  return .mk qualifiers type names

/-- Fields, at least one. -/
def fieldList (r : Rules) : TextParser (List Field) := many1 r.limit (r.before r.field)

def struct (r : Rules) : TextParser BaseType := do
  r.before (keyword "struct")
  let name ← maybe (r.before ident)
  commit do
    r.before (text "\x7b")
    let fields ← r.fieldList
    text "\x7d"
    return .struct name fields

def baseType (r : Rules) : TextParser BaseType :=
  choice [
    do return .builtin (← keywordOf builtinTypes),
    r.struct,
    do return .named (← ident)]

def typeSpecifier (r : Rules) : TextParser TypeSpec := do
  let base ← r.baseType
  return .mk base (← r.optionalSizes)

/-- A type with its qualifiers. -/
def fullType (r : Rules) : TextParser FullType := do
  let qualifiers ← maybe r.qualifiers
  return ⟨qualifiers.getD [], ← r.typeSpecifier⟩

end Rules

end NodeShader.Glsl
