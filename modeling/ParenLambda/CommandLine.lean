import ParenLambda.Command
import ParenLambda.CommandLine.Read
import ParenLambda.Settings.Load

/-!
# The command line

The commands of the tool as they are written on a command line, and what the tool does with its
arguments: it reads them, loads the settings, and carries out the command.
-/

namespace ParenLambda

namespace CommandLine

/-! ### Switches -/

/-- The choices for the use of colours. -/
def colourChoices : List Choice := [
  ⟨ColourMode.auto.word, "Auto-detect based on TTY (default)"⟩,
  ⟨ColourMode.always.word, "Always use colors"⟩,
  ⟨ColourMode.never.word, "Never use colors"⟩]

/-- The switches that may stand before and after the name of a command. -/
def sharedSwitches : List Switch := [
  { letter := some 'v', word := "verbose", effect := .counter,
    help := "Increase log verbosity (-v debug, -vv trace)" },
  { word := "color", effect := .option "WHEN" (.choice colourChoices),
    help := "When to color error output" }]

/-- The switch for help. -/
def helpSwitch : Switch :=
  { letter := some 'h', word := "help", effect := .help, help := "Print help" }

/-- The switch for the version. -/
def versionSwitch : Switch :=
  { letter := some 'V', word := "version", effect := .version, help := "Print version" }

/-- The switch that leaves out the base library. -/
def baseSwitch : Switch :=
  { word := "no-base", effect := .flag, help := "Do not prepend the base combinator library" }

/-- The switch that names a backend. -/
def backendSwitch (help : String) : Switch :=
  { letter := some 'b', word := "backend", effect := .option "BACKEND" .text, help := help }

/-- The operand that names the source. -/
def sourceOperand : Operand where
  name := "INPUT"
  help := "SEL source file, use - for stdin"

/-! ### Commands -/

/-- The name of the tool. -/
def toolName : String := "sel"

/-- The name and the version of the tool. -/
def versionLine : String := toolName ++ " 0.2.0\n"

/-- The grammar of a command of the tool. -/
def commandGrammar (name : String) (aliases : List String) (about : String) (own : List Switch)
    (operand : Option Operand) : Grammar where
  name := name
  aliases := aliases
  call := toolName ++ " " ++ name
  about := about
  own := own
  shared := sharedSwitches
  standard := [helpSwitch]
  operand := operand

/-- The grammar of the command that compiles. -/
def compileGrammar : Grammar :=
  commandGrammar "compile" ["c"] "Compile a SEL file and print or write the result" [
    baseSwitch,
    backendSwitch "Backend to render with (see `sel backends`)",
    { letter := some 'o', word := "output", effect := .option "OUTPUT" .path,
      help := "Output file (stdout if not specified)" },
    { word := "no-prelude", effect := .flag, help := "Do not inject the runtime prelude" },
    { word := "church-comment", effect := .flag,
      help := "Append the Church notation of the program as a comment (JavaScript only)" }]
    (some sourceOperand)

/-- The grammar of the command that runs. -/
def runGrammar : Grammar :=
  commandGrammar "run" ["r"] "Compile a SEL file and run it with node or python3"
    [baseSwitch, backendSwitch "Backend to render with; must produce an executable target"]
    (some sourceOperand)

/-- The grammar of the command that shows the tree. -/
def treeGrammar : Grammar :=
  commandGrammar "ast" [] "Print the program tree as JSON" [
    baseSwitch,
    { word := "raw", effect := .flag,
      help := "Dump the raw parse tree instead of the normalized tree" }]
    (some sourceOperand)

/-- The grammar of the command that lists the backends. -/
def backendsGrammar : Grammar :=
  commandGrammar "backends" [] "List available backends" [] none

/-- **The tool.** -/
def tool : Tool where
  top := {
    name := toolName
    call := toolName
    about := "Compile SEL lambda-calculus programs to JavaScript, Python or Church notation"
    shared := sharedSwitches
    standard := [helpSwitch, versionSwitch]
    takesCommand := true }
  commands := [compileGrammar, runGrammar, treeGrammar, backendsGrammar]
  helper := {
    name := "help"
    call := toolName ++ " help"
    about := "Print this message or the help of the given subcommand(s)"
    operand := some {
      name := "COMMAND", single := false, help := "Print help for the subcommand(s)" } }

/-! ### Requests -/

/-- The source that a reading asks for. -/
def sourceOf (reading : Reading) : Source where
  path := reading.operand?.getD ""
  withoutBase := reading.isSet "no-base"

/-- The command that a reading asks for. -/
def commandOf (grammar : Grammar) (reading : Reading) : Command :=
  if grammar.name == compileGrammar.name then
    .compile {
      source := sourceOf reading
      backend := reading.value? "backend"
      output := reading.value? "output"
      withoutPrelude := reading.isSet "no-prelude"
      withChurch := reading.isSet "church-comment" }
  else if grammar.name == runGrammar.name then .run (sourceOf reading) (reading.value? "backend")
  else if grammar.name == treeGrammar.name then .tree (sourceOf reading) (reading.isSet "raw")
  else .backends

/-- What a command line asks for. -/
structure Request where
  /-- When to use colours, if that is said. -/
  colour : Option ColourMode
  /-- The command. -/
  command : Command

/-- **Read a command line.** What is said after the name of the command on colours wins over what is
said before it. -/
def parse (arguments : List String) : Except Stop Request := do
  let (outer, grammar, inner) ← tool.read arguments
  let word := inner.value? "color" <|> outer.value? "color"
  pure ⟨word.bind ColourMode.ofWord?, commandOf grammar inner⟩

/-! ### The tool at work -/

/-- What the tool does if a command line does not get to a command: it prints what was asked for, or
reports what is missing or mistaken, with the exit code two. It does not look whether a standard stream
takes the text. -/
def Stop.action : Stop → Action Nat
  | .help detail grammar => .print (grammar.help detail tool.allCommands) fun _ => pure 0
  | .version => .print versionLine fun _ => pure 0
  | .idle grammar => .complain (grammar.help .summary tool.allCommands) fun _ => pure 2
  | .mistake what usage => .complain (what.report usage) fun _ => pure 2

/-- The variable that forbids colours if it is set. -/
def colourVariable : String := "NO_COLOR"

/-- **What the tool does with its arguments**, ending with its exit code, given the environment and
whether standard error is a terminal. -/
def action (environment : Environment) (terminal : Bool) (arguments : List String) : Action Nat :=
  match parse arguments with
  | .error stop => stop.action
  | .ok request => do
    let settings ← Settings.load environment
    let mode := (request.colour <|> settings.colour).getD .default
    let forbidden := (environment.lookup colourVariable).isSome
    request.command.action ⟨.standard, settings, mode.usesColours forbidden terminal⟩

end CommandLine

end ParenLambda
