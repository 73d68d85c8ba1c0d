import NodeShader.Compiler

/-!
# Sessions

An editor submits its graph on every change. A session compiles only the newest submission,
and only after a window of time without another one. Times and windows share one unit, the
millisecond where nothing else is said.
-/

namespace NodeShader

/-- A submission that waits to be compiled. Submissions are numbered from one. -/
structure Submission where
  request : Request
  generation : Nat
  time : Nat

/-- A session and what it has counted so far. -/
structure Session where
  compiler : Compiler := {}
  window : Nat := 500
  pending : Option Submission := none
  generation : Nat := 0
  submitted : Nat := 0
  compiled : Nat := 0
  superseded : Nat := 0
  lastDuration : Option Nat := none

/-- A submission that was compiled. -/
structure SessionOutcome where
  generation : Nat
  compilation : Compilation

namespace Session

/-- A session in which nothing has been submitted. -/
def opened (c : Compiler) (window : Nat) : Session := { compiler := c, window := window }

def setWindow (s : Session) (window : Nat) : Session := { s with window := window }

/-- Submits a graph in place of the one that waits. -/
def submit (s : Session) (g : Graph) (time : Nat) : Session :=
  let options := s.compiler.options
  let request : Request := ⟨g, options.language, options.optimize⟩
  { s with
    pending := some ⟨request, s.generation + 1, time⟩
    generation := s.generation + 1
    submitted := s.submitted + 1
    superseded := if s.pending.isSome then s.superseded + 1 else s.superseded }

/-- Compiles the graph that waits. How long that takes is for the clock to say. -/
def flush (s : Session) (duration : Nat := 0)
    (check : String → Glsl.SourceReport := Glsl.checkSource .grammar) :
    Option SessionOutcome × Session :=
  match s.pending with
  | none => (none, s)
  | some p =>
    (some ⟨p.generation, s.compiler.respond p.request check⟩,
      { s with
        pending := none
        compiled := s.compiled + 1
        lastDuration := some duration })

/-- Whether a graph waits and its window has passed. A clock that runs backwards has measured no
time. -/
def isDue (s : Session) (time : Nat) : Bool :=
  s.pending.any fun p => s.window ≤ time - p.time

/-- Compiles the graph that waits if its window has passed. -/
def poll (s : Session) (time : Nat) (duration : Nat := 0)
    (check : String → Glsl.SourceReport := Glsl.checkSource .grammar) :
    Option SessionOutcome × Session :=
  if s.isDue time then s.flush duration check else (none, s)

/-- Whether a compilation has been timed. -/
def isTimed (s : Session) : Bool := s.lastDuration.isSome

end Session

end NodeShader
