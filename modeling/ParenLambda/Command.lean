import ParenLambda.Assembly
import ParenLambda.Backend.Catalogue
import ParenLambda.Backend.Listing
import ParenLambda.Host.Action
import ParenLambda.Json.Tree
import ParenLambda.Prelude
import ParenLambda.Report
import ParenLambda.Settings

/-!
# Commands

What one can ask for: to compile a source, to run it, to see its tree, or to see the backends. A
command looks at what it was asked for before it reads anything, and reads everything before it
writes anything, so a command that fails has written nothing but the report of its failure.

A standard stream may refuse a text. A command does not report that: it crashes.
-/

namespace ParenLambda

/-- What a command works with besides its arguments. -/
structure Context where
  /-- The backends that can be asked for. -/
  catalogue : Catalogue
  /-- The settings. -/
  settings : Settings
  /-- Whether colours are used. -/
  colours : Bool

/-- The source that a command reads. -/
structure Source where
  /-- The path of the file, or a hyphen for the standard input. -/
  path : String
  /-- Whether the base library is left out even if the settings ask for it. -/
  withoutBase : Bool := false

/-- What to compile, and how. -/
structure CompileRequest where
  /-- The source. -/
  source : Source
  /-- The backend, if the settings do not decide. -/
  backend : Option String := none
  /-- The file to write to, if not the standard output. -/
  output : Option String := none
  /-- Whether the prelude is left out even if the settings ask for it. -/
  withoutPrelude : Bool := false
  /-- Whether the Church notation follows in a comment. -/
  withChurch : Bool := false

/-- **A command.** -/
inductive Command where
  /-- Write the text of a source in a backend. -/
  | compile (request : CompileRequest)
  /-- Hand the text of a source in a backend to an interpreter. -/
  | run (source : Source) (backend : Option String)
  /-- Write the tree of a source, as it is read or as it is compiled. -/
  | tree (source : Source) (asRead : Bool)
  /-- List the backends. -/
  | backends

/-- Why a command fails. -/
inductive Failure where
  /-- No backend answers to the name. -/
  | unknownBackend (name : String) (known : List String)
  /-- The backend, of which this is the name, has no comments for the Church notation. -/
  | noComments (backend : String)
  /-- The text of the backend, of which this is the name, cannot be executed. -/
  | nothingToRun (backend : String)
  /-- There is no program of that name. -/
  | noInterpreter (command : String)
  /-- The standard input cannot be read. -/
  | unreadableInput (refusal : Refusal)
  /-- The file cannot be read. -/
  | unreadable (path : String) (refusal : Refusal)
  /-- The source has a fault. -/
  | faulty (assembly : Assembly) (fault : Fault)
  /-- The file cannot be written. -/
  | unwritable (path : String) (refusal : Refusal)
  /-- The program cannot be started. -/
  | notStarted (program : String) (refusal : Refusal)

/-- **The report of a failure.** -/
def Failure.report (colours : Bool) : Failure → String
  | unknownBackend name known =>
    Terminal.errorLine colours ((Fault.unknownBackend name).message ++ " (available: " ++
      ", ".intercalate known ++ ")")
  | noComments backend =>
    Terminal.errorLine colours
      ("--church-comment needs a JavaScript backend, not '" ++ backend ++ "'")
  | nothingToRun backend =>
    Terminal.errorLine colours
      ("backend '" ++ backend ++ "' produces notation only; there is nothing to run")
  | noInterpreter command =>
    Terminal.errorLine colours ("runtime '" ++ command ++ "' not found: cannot find binary path")
  | unreadableInput refusal =>
    Terminal.errorLine colours ("failed to read stdin: " ++ refusal.message)
  | unreadable path refusal =>
    Terminal.errorLine colours ("failed to read " ++ path ++ ": " ++ refusal.message)
  | faulty assembly fault => Report.write colours assembly fault
  | unwritable path refusal =>
    Terminal.errorLine colours ("failed to write " ++ path ++ ": " ++ refusal.message)
  | notStarted program refusal =>
    Terminal.errorLine colours ("failed to run '" ++ program ++ "': " ++ refusal.message)

/-- **What is said about a failure**, one text after the other until one is taken: if the report that
shows the place of a fault is refused, the message alone is tried. -/
def Failure.reports (colours : Bool) (failure : Failure) : List String :=
  failure.report colours ::
    match failure with
    | faulty _ fault => [Terminal.errorLine colours fault.message]
    | _ => []

namespace Command

/-- An action that may fail. -/
abbrev Attempt := ExceptT Failure Action

/-- The exit code of a program that crashes. What the run-time system says about the crash, on the
standard error, is left out. -/
def crashCode : Nat := 101

/-! ### Requests to the system -/

/-- Write to the standard output, which is the last that a command does: it succeeds, or it crashes. -/
def print (text : String) : Attempt Nat :=
  ExceptT.mk (.print text fun
    | .ok () => .done (.ok 0)
    | .error _ => .done (.ok crashCode))

/-- Say the first of some texts that the standard error takes, and exit with the code one. If it takes
none of them, the program crashes. -/
def explain : List String → Action Nat
  | [] => .done crashCode
  | text :: rest => .complain text fun
    | .ok () => .done 1
    | .error _ => explain rest

/-- Write a text to a file. -/
def write (path text : String) : Attempt Unit :=
  ExceptT.mk (.writeFile path text fun
    | .ok () => .done (.ok ())
    | .error refusal => .done (.error (.unwritable path refusal)))

/-- Find the program that a command names. -/
def locate (command : String) : Attempt String :=
  ExceptT.mk (.locate command fun
    | some program => .done (.ok program)
    | none => .done (.error (.noInterpreter command)))

/-- Run a program with an input; a program that does not end by itself counts as failed. -/
def execute (program input : String) : Attempt Nat :=
  ExceptT.mk (.execute program input fun
    | .ok (.exited code) => .done (.ok code)
    | .ok .killed => .done (.ok 1)
    | .error refusal => .done (.error (.notStarted program refusal)))

/-- The name under which the standard input is reported. -/
def inputName : String := "<stdin>"

/-- Read and assemble a source. -/
def load (context : Context) (source : Source) : Attempt Assembly :=
  let withBase := !source.withoutBase && context.settings.usesBase
  if source.path == "-" then
    ExceptT.mk (.readInput fun
      | .ok text => .done (.ok (.make inputName text withBase))
      | .error refusal => .done (.error (.unreadableInput refusal)))
  else
    ExceptT.mk (.readFile source.path fun
      | .ok text => .done (.ok (.make source.path text withBase))
      | .error refusal => .done (.error (.unreadable source.path refusal)))

/-! ### Steps that commands share -/

/-- The backend of a name, or else that of the settings. -/
def resolve (context : Context) (name? : Option String) : Except Failure Backend :=
  let name := name?.getD context.settings.backendName
  match context.catalogue.find? name with
  | some backend => .ok backend
  | none => .error (.unknownBackend name context.catalogue.names)

/-- The program of an assembled source. -/
def program (assembly : Assembly) : Except Failure Program :=
  match assembly.compile with
  | .ok program => .ok program
  | .error fault => .error (.faulty assembly fault)

/-- The text of a program in a backend, with the prelude of its target or without. -/
def render (backend : Backend) (withPrelude : Bool) (program : Program) : String :=
  backend.render program (if withPrelude then Prelude.ofTarget? backend.target else none)

/-- A comment with the Church notation of a program. -/
def churchComment (program : Program) : String :=
  "\n\n/*\n" ++ Backend.church.render program none ++ "\n*/"

/-! ### The commands -/

/-- Whether a backend can do what a request asks of it. -/
def checkComment (request : CompileRequest) (backend : Backend) : Except Failure Unit :=
  if request.withChurch && backend.target != .javaScript then .error (.noComments backend.name)
  else .ok ()

/-- The text that a request to compile asks for. -/
def compiledText (context : Context) (request : CompileRequest) (backend : Backend)
    (program : Program) : String :=
  let withPrelude := !request.withoutPrelude && context.settings.usesPrelude
  let comment := if request.withChurch then churchComment program else ""
  render backend withPrelude program ++ comment

/-- Compile a source. -/
def attemptCompile (context : Context) (request : CompileRequest) : Attempt Nat := do
  let backend ← resolve context request.backend
  checkComment request backend
  let assembly ← load context request.source
  let program ← program assembly
  let text := compiledText context request backend program ++ "\n"
  match request.output with
  | some path => do
    write path text
    pure 0
  | none => print text

/-- The command that starts the interpreter of a backend's text. -/
def interpreter (context : Context) (backend : Backend) : Except Failure String :=
  match context.settings.interpreter? backend.target with
  | some command => .ok command
  | none => .error (.nothingToRun backend.name)

/-- Compile a source and hand the text, with the prelude, to an interpreter. -/
def attemptRun (context : Context) (source : Source) (backend? : Option String) : Attempt Nat := do
  let backend ← resolve context backend?
  let command ← interpreter context backend
  let interpreter ← locate command
  let assembly ← load context source
  let program ← program assembly
  execute interpreter (render backend true program)

/-- The tree of an assembled source as JSON. -/
def treeOf (assembly : Assembly) (asRead : Bool) : Except Failure Json.Value :=
  if asRead then
    match Form.parse assembly.text with
    | .ok forms => .ok (Json.ofForms forms)
    | .error fault => .error (.faulty assembly fault)
  else
    match assembly.compile with
    | .ok program => .ok (Json.ofProgram program)
    | .error fault => .error (.faulty assembly fault)

/-- Write the tree of a source. -/
def attemptTree (context : Context) (source : Source) (asRead : Bool) : Attempt Nat := do
  let assembly ← load context source
  let value ← treeOf assembly asRead
  print (value.write 0 ++ "\n")

/-- List the backends. -/
def attemptBackends (context : Context) : Attempt Nat := do
  let lines := Backend.listing context.colours context.catalogue.backends
  print (String.join (lines.map (· ++ "\n")))

/-- What a command does, up to the report of its failure. -/
def attempt (context : Context) : Command → Attempt Nat
  | .compile request => attemptCompile context request
  | .run source backend => attemptRun context source backend
  | .tree source asRead => attemptTree context source asRead
  | .backends => attemptBackends context

/-- **What a command does**, ending with its exit code. A failure is reported on the standard error. -/
def action (context : Context) (command : Command) : Action Nat := do
  match ← (attempt context command).run with
  | .ok code => pure code
  | .error failure => explain (failure.reports context.colours)

end Command

end ParenLambda
