import NodeShader.Dictionary
import NodeShader.Text.Character

/-!
# Templates of shader text

A template is shader text with placeholders for inputs, outputs, parameters,
temporaries and the result variable; a doubled brace stands for a brace.
`Template.parse` reads the text of a template, `Template.write` writes it back, and
`Template.render` replaces the placeholders.
-/

namespace NodeShader

/-- A piece of a template. -/
inductive Segment where
  | text (s : String)
  | input (name : String)
  | output (name : String)
  | parameter (name : String)
  | temporary (name : String)
  | result
deriving DecidableEq, Repr

/-- A name between braces. -/
def braced (name : String) : String := "\x7b" ++ name ++ "\x7d"

/-- A segment as it is shown to a reader; the braces of a text are not doubled. -/
def Segment.display : Segment → String
  | text s => s
  | input name => braced ("in." ++ name)
  | output name => braced ("out." ++ name)
  | parameter name => braced ("param." ++ name)
  | temporary name => braced ("local." ++ name)
  | result => braced "result"

/-- What is wrong with a template. Offsets count bytes. -/
inductive TemplateError where
  | unterminated (offset : Nat)
  | unmatched (offset : Nat)
  | unknownPlaceholder (name : String)
  | unbound (segment : Segment)
deriving DecidableEq, Repr

def TemplateError.message : TemplateError → String
  | unterminated offset => s!"unterminated placeholder at byte {offset}"
  | unmatched offset => s!"unmatched '\x7d' at byte {offset}"
  | unknownPlaceholder name => s!"unknown placeholder '{braced name}'"
  | unbound segment => s!"template references undeclared {segment.display}"

structure Template where
  segments : List Segment
deriving DecidableEq, Repr

/-- The values that replace the placeholders of a template. -/
structure Bindings where
  inputs : Dictionary String := ∅
  outputs : Dictionary String := ∅
  parameters : Dictionary String := ∅
  stem : String := ""
  result : String := ""

/-- The variable of a temporary. -/
def temporaryName (stem name : String) : String := stem ++ "_" ++ name

namespace Template

/-- The number of bytes of a text. -/
def byteLength : List Char → Nat
  | [] => 0
  | c :: cs => c.utf8Size + byteLength cs

/-- The segment that a placeholder's name means. -/
def placeholder (name : List Char) : Except TemplateError Segment :=
  let unknown := TemplateError.unknownPlaceholder (String.ofList name)
  if name = "result".toList then
    .ok .result
  else
    match name.dropWhile (· ≠ '.') with
    | [] | [_] => .error unknown
    | _ :: ident =>
      let kind := name.takeWhile (· ≠ '.')
      if kind = "in".toList then .ok (.input (String.ofList ident))
      else if kind = "out".toList then .ok (.output (String.ofList ident))
      else if kind = "param".toList then .ok (.parameter (String.ofList ident))
      else if kind = "local".toList then .ok (.temporary (String.ofList ident))
      else .error unknown

/-- The pending text, newest character first, as a segment before `rest`. -/
def flush (pending : List Char) (rest : List Segment) : List Segment :=
  if pending.isEmpty then rest else .text (String.ofList pending.reverse) :: rest

theorem length_of_dropWhile {p : Char → Bool} {cs rest : List Char} {c : Char}
    (h : cs.dropWhile p = c :: rest) : rest.length < cs.length := by
  have := (List.dropWhile_sublist p (l := cs)).length_le
  rw [h] at this
  exact this

/-- Reads the segments from byte `offset` on, after the pending text. -/
def parseFrom (offset : Nat) (pending : List Char) :
    List Char → Except TemplateError (List Segment)
  | [] => .ok (flush pending [])
  | '\x7b' :: '\x7b' :: cs => parseFrom (offset + 2) ('\x7b' :: pending) cs
  | '\x7d' :: '\x7d' :: cs => parseFrom (offset + 2) ('\x7d' :: pending) cs
  | '\x7d' :: _ => .error (.unmatched offset)
  | '\x7b' :: cs =>
    match h : cs.dropWhile (· ≠ '\x7d') with
    | [] => .error (.unterminated offset)
    | _ :: rest => do
      have := length_of_dropWhile h
      let name := cs.takeWhile (· ≠ '\x7d')
      let segment ← placeholder name
      let segments ← parseFrom (offset + byteLength name + 2) [] rest
      return flush pending (segment :: segments)
  | c :: cs => parseFrom (offset + c.utf8Size) (c :: pending) cs
termination_by cs => cs.length

/-- Reads the text of a template. -/
def parse (source : String) : Except TemplateError Template := do
  return ⟨← parseFrom 0 [] source.toList⟩

/-- A text with its braces doubled. -/
def escapeText : List Char → List Char
  | [] => []
  | c :: cs =>
    if c = '\x7b' ∨ c = '\x7d' then c :: c :: escapeText cs else c :: escapeText cs

/-- The text of one segment in a template. -/
def writeSegment : Segment → String
  | .text text => String.ofList (escapeText text.toList)
  | segment => segment.display

/-- The text of a template with these segments. -/
def write (segments : List Segment) : String := String.join (segments.map writeSegment)

/-- The names of the temporaries, each once, in the order of first use. -/
def temporaries (t : Template) : List String :=
  (t.segments.filterMap fun
    | .temporary name => some name
    | _ => none).eraseDups

/-- Whether a segment shows nothing but white space. -/
def blankSegment : Segment → Bool
  | .text text => blankText text
  | _ => false

/-- Whether the template renders to white space only. -/
def isBlank (t : Template) : Bool := t.segments.all blankSegment

/-- The value of one segment. -/
def renderSegment (b : Bindings) (segment : Segment) : Except TemplateError String :=
  let look (d : Dictionary String) (name : String) : Except TemplateError String :=
    match d.get? name with
    | some value => .ok value
    | none => .error (.unbound segment)
  match segment with
  | .text text => .ok text
  | .input name => look b.inputs name
  | .output name => look b.outputs name
  | .parameter name => look b.parameters name
  | .temporary name => .ok (temporaryName b.stem name)
  | .result => .ok b.result

/-- Replaces every placeholder by its value. -/
def render (t : Template) (b : Bindings) : Except TemplateError String := do
  return String.join (← t.segments.mapM (renderSegment b))

end Template

end NodeShader
