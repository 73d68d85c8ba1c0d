import NodeShader.Glsl.Lexical

/-!
# Preprocessor directives
-/

namespace NodeShader.Glsl.Directive

open TextParser

/-- The text after white space within a line. -/
def skipInline : List Char → List Char
  | ' ' :: cs | '\t' :: cs => skipInline cs
  | '\\' :: '\n' :: cs => skipInline cs
  | cs => cs

/-- White space within a line. -/
def spaces : TextParser Unit := fun cs => .done () (skipInline cs)

/-- A part, and the white space after it. -/
def spaced {α : Type} (p : TextParser α) : TextParser α := do
  let value ← p
  spaces
  return value

/-- The rest of the line. -/
def restOfLine : TextParser Unit := fun cs => .done () (skipLine cs)

/-- The end of the line or of the text. -/
def endOfLine : TextParser Unit := choice [atEnd, text "\n", text "\r\n"]

/-- A definition, with parameters if a parenthesis follows its name. -/
def define (limit : Nat) : TextParser Unit := do
  spaced (keyword "define")
  let _ ← commit ident
  choice [
    do
      spaced (text "(")
      let _ ← separated limit (commit (spaced ident)) (spaced (text ","))
      commit (spaced (text ")"))
      restOfLine,
    restOfLine]

/-- A directive whose line holds nothing else. -/
def bare : TextParser Unit := do
  let _ ← spaced (keywordOf ["else", "endif"])
  commit endOfLine

/-- A directive with any text. -/
def free : TextParser Unit := do
  let _ ← spaced (keywordOf ["elif", "error", "if", "pragma"])
  restOfLine

/-- A directive with a name. -/
def named : TextParser Unit := do
  let _ ← spaced (keywordOf ["ifdef", "ifndef", "undef"])
  let _ ← commit (spaced ident)
  endOfLine

/-- The name of a file between the given marks. -/
def path (first last : String) (isLast : Char → Bool) : TextParser Unit := do
  text first
  let _ ← run (fun c => !isLast c)
  text last

def inclusion : TextParser Unit := do
  spaced (keyword "include")
  commit (spaced (choice [path "<" ">" (· == '>'), path "\"" "\"" (· == '"')]))
  commit endOfLine

/-- A whole number that may have a minus. -/
def signedInteger : TextParser Unit := do
  let _ ← maybe (text "-")
  integerConstant

def line : TextParser Unit := do
  spaced (keyword "line")
  commit (spaced signedInteger)
  let _ ← maybe (spaced signedInteger)
  commit endOfLine

def version : TextParser Unit := do
  spaced (keyword "version")
  let _ ← commit (spaced digits)
  let _ ← maybe (spaced (keywordOf ["core", "compatibility", "es"]))
  commit endOfLine

def extension : TextParser Unit := do
  spaced (keyword "extension")
  let _ ← commit (spaced ident)
  let _ ← maybe do
    spaced (text ":")
    commit (spaced (keywordOf ["require", "enable", "warn", "disable"]))
  commit endOfLine

/-- A directive. After its mark there is no other alternative. -/
def directive (limit : Nat) : TextParser Unit := do
  spaced (text "#")
  commit (choice [define limit, bare, free, named, inclusion, line, version, extension])

end NodeShader.Glsl.Directive
