import ParenLambda.CommandLine
import ParenLambda.Host.World

/-!
# The tool as a program

Actions carried out on the system at hand. Programs are not started from here, so a command that
needs one reports that there is none.
-/

namespace ParenLambda

namespace Host

/-- What the system says about a request that it refuses. -/
def refusalOf (error : IO.Error) : Refusal :=
  match error with
  | .noFileOrDirectory _ _ _ => .notFound
  -- The code comes with its sign changed from some requests.
  | .inappropriateType _ code _ =>
    if code == 20 || code + 20 == 0 then .notDirectory else .isDirectory
  | .noSuchThing _ _ _ => .notFound
  | .resourceExhausted _ 28 _ => .noSpace
  | other => .other (toString other)

/-- A request to the system, which it may refuse. -/
def attempt {α : Type} (request : IO α) : IO (Except Refusal α) := do
  match ← request.toBaseIO with
  | .ok value => pure (.ok value)
  | .error error => pure (.error (refusalOf error))

/-- All that is left to read from a stream. -/
partial def readAll (stream : IO.FS.Stream) (bytes : ByteArray) : IO ByteArray := do
  let more ← stream.read 65536
  if more.isEmpty then pure bytes else readAll stream (bytes ++ more)

/-- Write a text to a stream, through to where it leads. -/
def say (stream : IO.FS.Stream) (text : String) : IO Unit := do
  stream.putStr text
  stream.flush

/-- Carry out an action on the system. -/
def carryOut {α : Type} : Action α → IO α
  | .done value => pure value
  | .readFile path next => do
    let bytes ← attempt (IO.FS.readBinFile path)
    carryOut (next (bytes.bind World.decode))
  | .readInput next => do
    let bytes ← attempt (do readAll (← IO.getStdin) .empty)
    carryOut (next (bytes.bind World.decode))
  | .writeFile path text next => do
    let written ← attempt (IO.FS.withFile path .write fun file => say (.ofHandle file) text)
    carryOut (next written)
  | .print text next => do
    let said ← attempt (do say (← IO.getStdout) text)
    carryOut (next said)
  | .complain text next => do
    let said ← attempt (do say (← IO.getStderr) text)
    carryOut (next said)
  | .locate _ next => carryOut (next none)
  | .execute _ _ next => carryOut (next (.error .notExecutable))

/-- The variables that the tool looks at, as far as they are set. -/
def environment : IO Environment := do
  let names := ["XDG_CONFIG_HOME", "HOME", CommandLine.colourVariable]
  names.filterMapM fun name => do
    pure ((← IO.getEnv name).map fun value => (name, value))

end Host

end ParenLambda

open ParenLambda in
/-- Run the tool with its arguments. -/
def main (arguments : List String) : IO UInt32 := do
  let terminal ← (← IO.getStderr).isTty
  let code ← Host.carryOut (CommandLine.action (← Host.environment) terminal arguments)
  pure code.toUInt32
