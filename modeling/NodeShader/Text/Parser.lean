/-!
# Parsers with a point of no return

A parser reads a part of a text or fails in one of two ways: after a miss another
alternative may be tried, and after an abort none may. `commit` turns the misses of a
parser into aborts.
-/

namespace NodeShader

/-- What a parser makes of a text. -/
inductive Reply (α : Type) where
  | done (value : α) (rest : List Char)
  | miss
  | abort
deriving Repr

/-- A parser of a part of a text. -/
def TextParser (α : Type) : Type := List Char → Reply α

namespace TextParser

variable {α β : Type}

def pure (value : α) : TextParser α := fun cs => .done value cs

def bind (p : TextParser α) (next : α → TextParser β) : TextParser β := fun cs =>
  match p cs with
  | .done value rest => next value rest
  | .miss => .miss
  | .abort => .abort

instance : Monad TextParser where
  pure := TextParser.pure
  bind := TextParser.bind

/-- The parser that always misses. -/
def miss : TextParser α := fun _ => .miss

/-- The parser that always aborts. -/
def abort : TextParser α := fun _ => .abort

/-- The first alternative, or the second if the first misses. -/
def or (p q : TextParser α) : TextParser α := fun cs =>
  match p cs with
  | .miss => q cs
  | reply => reply

instance : OrElse (TextParser α) := ⟨fun p q => p.or (q ())⟩

/-- The first alternative that does not miss. -/
def choice (alternatives : List (TextParser α)) : TextParser α := alternatives.foldr TextParser.or miss

/-- From here on there is no other alternative. -/
def commit (p : TextParser α) : TextParser α := fun cs =>
  match p cs with
  | .miss => .abort
  | reply => reply

/-- What the parser reads, if it does not miss. -/
def maybe (p : TextParser α) : TextParser (Option α) := fun cs =>
  match p cs with
  | .done value rest => .done (some value) rest
  | .miss => .done none cs
  | .abort => .abort

/-- Misses where the parser does not; reads nothing. -/
def absent (p : TextParser α) : TextParser Unit := fun cs =>
  match p cs with
  | .done .. => .miss
  | .miss => .done () cs
  | .abort => .abort

/-- Repeats a parser up to its first miss, at most `limit` times. -/
def many (limit : Nat) (p : TextParser α) : TextParser (List α) := fun cs =>
  match limit with
  | 0 => .done [] cs
  | limit + 1 =>
    match p cs with
    | .miss => .done [] cs
    | .abort => .abort
    | .done value rest =>
      match many limit p rest with
      | .done values rest => .done (value :: values) rest
      | .miss => .miss
      | .abort => .abort

/-- Repeats a parser at least once. -/
def many1 (limit : Nat) (p : TextParser α) : TextParser (List α) := do
  let first ← p
  let others ← many limit p
  return first :: others

/-- Reads `item`s with separators between them, possibly none. A separator after which no item
follows is not part of the list. -/
def separated (limit : Nat) (item : TextParser α) (separator : TextParser β) : TextParser (List α) := do
  match ← maybe item with
  | none => return []
  | some first =>
    let others ← many limit do
      let _ ← separator
      item
    return first :: others

/-- Folds a parser of continuations over a first value, up to its first miss. -/
def follow (limit : Nat) (first : α) (next : α → TextParser α) : TextParser α := fun cs =>
  match limit with
  | 0 => .done first cs
  | limit + 1 =>
    match next first cs with
    | .miss => .done first cs
    | .abort => .abort
    | .done value rest => follow limit value next rest

/-- The given text. -/
def text (s : String) : TextParser Unit := fun cs =>
  match s.toList.isPrefixOf? cs with
  | some rest => .done () rest
  | none => .miss

/-- The first of some texts. -/
def oneOf (texts : List String) : TextParser String :=
  choice (texts.map fun s => do
    text s
    return s)

/-- The longest run of characters with a property; it may be empty. -/
def run (p : Char → Bool) : TextParser (List Char) := fun cs =>
  .done (cs.takeWhile p) (cs.dropWhile p)

/-- The longest run of characters with a property; it may not be empty. -/
def run1 (p : Char → Bool) : TextParser (List Char) := do
  match ← run p with
  | [] => miss
  | cs => return cs

/-- The end of the text. -/
def atEnd : TextParser Unit := fun cs => if cs.isEmpty then .done () cs else .miss

end TextParser

end NodeShader
