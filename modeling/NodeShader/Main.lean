import NodeShader.Command.Run
import NodeShader.Json.Writer

/-!
# The command line
-/

namespace NodeShader

def usage : String :=
  "usage: shadergraph compile GRAPH [--config FILE] [--entry main|main-image] [--no-optimize] " ++
  "[--code-only]\n       shadergraph check SOURCE\n       shadergraph nodes [--category CATEGORY]"

/-- The contents of a file, if it can be read. -/
def readText? (path : String) : IO (Option String) := do
  try
    return some (← IO.FS.readFile path)
  catch _ =>
    return none

/-- Reads the files of a command, runs it and prints what it gives. -/
def execute (command : Command) : IO Nat := do
  let contents ← command.files.mapM fun path => return (path, ← readText? path)
  let start ← IO.monoNanosNow
  let result := command.run fun path => (contents.lookup path).join
  match result with
  | .error e =>
    IO.eprintln e.message
    return failureStatus
  | .ok outcome =>
    let stop ← IO.monoNanosNow
    match outcome.printout.document (some ⟨false, stop - start, -6⟩) with
    | .inl document => IO.println document.pretty
    | .inr text => IO.print text
    outcome.remarks.forM fun line => IO.eprintln line
    return outcome.status

end NodeShader

def main (arguments : List String) : IO UInt32 := do
  match NodeShader.Command.ofArguments? arguments with
  | some command => return (← NodeShader.execute command).toUInt32
  | none =>
    IO.eprintln NodeShader.usage
    return NodeShader.failureStatus.toUInt32
