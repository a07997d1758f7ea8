/-!
# Grammars of command lines

What may stand on a command line after the name of a command: switches, which start with hyphens and
may take a value, and at most one operand. The usage line of a command follows from its grammar.
-/

namespace ParenLambda

namespace CommandLine

/-- A word that a switch takes as its value. -/
structure Choice where
  /-- The word. -/
  word : String
  /-- What it means. -/
  help : String

/-- The values that are accepted. -/
inductive Values where
  /-- Any text. -/
  | text
  /-- Any text that is not empty. -/
  | path
  /-- One of some words. -/
  | choice (choices : List Choice)

/-- The words to choose from, if there are such. -/
def Values.words : Values → List String
  | .choice choices => choices.map Choice.word
  | _ => []

/-- Whether a value is accepted. -/
def Values.accepts : Values → String → Bool
  | .text, _ => true
  | .path, value => !value.isEmpty
  | .choice choices, value => choices.any (·.word == value)

/-- What a switch does. -/
inductive Effect where
  /-- It is set. -/
  | flag
  /-- It counts how often it stands there. -/
  | counter
  /-- It takes a value, called `name`. -/
  | option (name : String) (values : Values)
  /-- It asks for help. -/
  | help
  /-- It asks for the version. -/
  | version

/-- **A switch.** -/
structure Switch where
  /-- The letter that may stand for it after one hyphen. -/
  letter : Option Char := none
  /-- The word that stands for it after two hyphens. -/
  word : String
  /-- What it does. -/
  effect : Effect
  /-- What it is for. -/
  help : String

/-- The switch as messages show it, with the value that it takes. -/
def Switch.label (switch : Switch) : String :=
  "--" ++ switch.word ++
    match switch.effect with
    | .counter => "..."
    | .option name _ => " <" ++ name ++ ">"
    | _ => ""

/-- An operand. -/
structure Operand where
  /-- The name of its value. -/
  name : String
  /-- Whether it stands there exactly once; otherwise it stands there any number of times. -/
  single : Bool := true
  /-- What it is for. -/
  help : String

/-- The operand as messages show it. -/
def Operand.label (operand : Operand) : String :=
  if operand.single then "<" ++ operand.name ++ ">" else "[" ++ operand.name ++ "]..."

/-- **The grammar of a command.** -/
structure Grammar where
  /-- The name of the command. -/
  name : String
  /-- Further names of the command. -/
  aliases : List String := []
  /-- The words that call it. -/
  call : String
  /-- What it does. -/
  about : String
  /-- The switches of the command itself. -/
  own : List Switch := []
  /-- The switches that all commands of a tool have. -/
  shared : List Switch := []
  /-- The switches for help and the version. -/
  standard : List Switch := []
  /-- The operand. -/
  operand : Option Operand := none
  /-- Whether the name of a further command has to follow. -/
  takesCommand : Bool := false

namespace Grammar

/-- All switches of a command. -/
def switches (grammar : Grammar) : List Switch :=
  grammar.own ++ grammar.shared ++ grammar.standard

/-- Whether a command answers to a name. -/
def answers (grammar : Grammar) (name : String) : Bool :=
  grammar.name == name || grammar.aliases.contains name

/-- The switch for a word. -/
def ofWord? (grammar : Grammar) (word : String) : Option Switch :=
  grammar.switches.find? (·.word == word)

/-- The switch for a letter. -/
def ofLetter? (grammar : Grammar) (letter : Char) : Option Switch :=
  grammar.switches.find? (·.letter == some letter)

/-! ### Usage -/

/-- What follows the switches in a usage line. -/
def usageEnd (grammar : Grammar) : List String :=
  (grammar.operand.map Operand.label).toList ++ if grammar.takesCommand then ["<COMMAND>"] else []

/-- The usage line of a command, with the given part for the switches. -/
def usageWith (grammar : Grammar) (switches : List String) : String :=
  "Usage: " ++ " ".intercalate (grammar.call :: switches ++ grammar.usageEnd)

/-- **The usage line of a command.** -/
def usage (grammar : Grammar) : String :=
  grammar.usageWith (if grammar.switches.isEmpty then [] else ["[OPTIONS]"])

end Grammar

end CommandLine

end ParenLambda
