/-!
# Brackets

`bracketFault?` checks that the brackets of a text are nested. Comments do not count; lines
and columns do, from one on, a column being one character.
-/

namespace NodeShader.Glsl

/-- A bracket and its place. -/
structure Mark where
  bracket : Char
  line : Nat
  column : Nat
deriving DecidableEq, Repr

/-- Where in a text a character stands. `commentMark` is the star that opens a block comment; in
the comment itself the character before matters. -/
inductive Region where
  | code
  | lineComment
  | commentMark
  | blockComment (previous : Char)
deriving DecidableEq, Repr

/-- Where the character after `c` stands, if `following` is that character. -/
def Region.next (region : Region) (c : Char) (following : Option Char) : Region :=
  match region with
  | code =>
    if c = '/' ∧ following = some '/' then lineComment
    else if c = '/' ∧ following = some '*' then commentMark
    else code
  | lineComment => if c = '\n' then code else lineComment
  | commentMark => blockComment ' '
  | blockComment previous => if previous = '*' ∧ c = '/' then code else blockComment c

def isBracket (c : Char) : Bool :=
  c == '(' || c == ')' || c == '[' || c == ']' || c == '\x7b' || c == '\x7d'

/-- The brackets outside comments. The place given is that of the character before. -/
def marks (region : Region) (line column : Nat) : List Char → List Mark
  | [] => []
  | c :: cs =>
    let (line, column) := if c = '\n' then (line + 1, 0) else (line, column + 1)
    let others := marks (region.next c cs.head?) line column cs
    if region = .code ∧ isBracket c then ⟨c, line, column⟩ :: others else others

/-- The closing bracket for an opening one. -/
def closerOf : Char → Char
  | '(' => ')'
  | '[' => ']'
  | _ => '\x7d'

def isOpener (c : Char) : Bool := c == '(' || c == '[' || c == '\x7b'

/-- What is wrong with the nesting of brackets. -/
inductive BracketFault where
  | unmatched (mark : Mark)
  | mismatched (mark : Mark) (expected : Char)
  | unclosed (mark : Mark)
deriving DecidableEq, Repr

def BracketFault.message : BracketFault → String
  | unmatched m => s!"unmatched '{m.bracket}' at {m.line}:{m.column}"
  | mismatched m expected =>
    s!"mismatched '{m.bracket}' at {m.line}:{m.column}, expected '{expected}'"
  | unclosed m => s!"unclosed '{m.bracket}' at {m.line}:{m.column}"

/-- The first fault, given the brackets that are open, the innermost first. -/
def nestingFault? (unclosed : List Mark) : List Mark → Option BracketFault
  | [] => unclosed.head?.map .unclosed
  | m :: ms =>
    if isOpener m.bracket then
      nestingFault? (m :: unclosed) ms
    else
      match unclosed with
      | [] => some (.unmatched m)
      | innermost :: others =>
        let expected := closerOf innermost.bracket
        if m.bracket = expected then nestingFault? others ms else some (.mismatched m expected)

/-- The first fault in the nesting of the brackets of a text. -/
def bracketFault? (text : String) : Option BracketFault :=
  nestingFault? [] (marks .code 1 0 text.toList)

end NodeShader.Glsl
