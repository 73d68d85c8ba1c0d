import NodeShader.Text.Character

/-!
# Values of settings files

Settings are written in RON, a notation of named fields in parentheses. A value keeps what
settings are made of; texts, characters and numbers with a fraction have no use in settings, so
only their place is kept. In a written value every field stands on a line of its own, indented by
four spaces and ended by a comma.
-/

namespace NodeShader

/-- A value of a settings file. A `record` with no fields is also an empty tuple. -/
inductive Ron where
  | bool (b : Bool)
  | word (name : String)
  | number (n : Int)
  | scalar
  | list (items : List Ron)
  | map (entries : List (Ron × Ron))
  | record (name : Option String) (fields : List (String × Ron))
  | tuple (name : Option String) (items : List Ron)
deriving Inhabited

namespace Ron

/-- The characters of plain words. -/
def isWordChar (c : Char) : Bool := isAlphanumeric c || c == '_'

/-- The characters of raw words. -/
def isRawChar (c : Char) : Bool := isWordChar c || c == '.' || c == '+' || c == '-'

/-- The characters that a word may begin with. -/
def isWordStart (c : Char) : Bool := isWordChar c && !c.isDigit

/-- Whether a word needs no mark. -/
def isPlain (name : String) : Bool :=
  match name.toList with
  | [] => false
  | c :: cs => isWordStart c && cs.all isWordChar

/-- A word, marked as raw where it has to be. -/
def wordText (name : String) : String := if isPlain name then name else "r#" ++ name

/-- An indentation. -/
def indent (depth : Nat) : String := String.ofList (List.replicate (4 * depth) ' ')

/-- Lines between brackets. -/
def block (left right : String) (depth : Nat) (lines : List String) : String :=
  if lines.isEmpty then
    left ++ right
  else
    left ++ "\n" ++ String.join (lines.map fun line => indent (depth + 1) ++ line ++ ",\n") ++
      indent depth ++ right

mutual

/-- The text of a value at a depth. Names of records are left out. -/
def write (depth : Nat) : Ron → String
  | .bool b => if b then "true" else "false"
  | .word name => wordText name
  | .number n => toString n
  | .scalar => "\"\""
  | .list items => block "[" "]" depth (writeItems (depth + 1) items)
  | .map entries => block "\x7b" "\x7d" depth (writeEntries (depth + 1) entries)
  | .record _ fields => block "(" ")" depth (writeFields (depth + 1) fields)
  | .tuple _ items => block "(" ")" depth (writeItems (depth + 1) items)

def writeItems (depth : Nat) : List Ron → List String
  | [] => []
  | v :: rest => write depth v :: writeItems depth rest

def writeEntries (depth : Nat) : List (Ron × Ron) → List String
  | [] => []
  | (key, v) :: rest => (write depth key ++ ": " ++ write depth v) :: writeEntries depth rest

def writeFields (depth : Nat) : List (String × Ron) → List String
  | [] => []
  | (name, v) :: rest => (wordText name ++ ": " ++ write depth v) :: writeFields depth rest

end

/-- The text of a value. -/
def toText (v : Ron) : String := write 0 v

end Ron

end NodeShader
