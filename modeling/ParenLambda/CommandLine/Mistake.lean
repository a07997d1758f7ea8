import ParenLambda.CommandLine.Grammar

/-!
# Mistakes on a command line

What can be wrong with a command line, what is said about it, and the tips on what may have been
meant.
-/

namespace ParenLambda

namespace CommandLine

/-- What may have been meant. -/
inductive Tip where
  /-- A similar argument. -/
  | argument (similar : String)
  /-- An argument of a command that is named later on. -/
  | later (command argument : String)
  /-- The argument as a value, behind two hyphens. -/
  | asValue (argument : String)
  /-- A command, which has to stand before two hyphens. -/
  | command (name : String)
  /-- Similar commands. -/
  | commands (similar : List String)
  /-- A similar value. -/
  | value (similar : String)

/-- A word in quotes. -/
def quoted (word : String) : String :=
  "'" ++ word ++ "'"

/-- The text of a tip. -/
def Tip.text : Tip → String
  | argument similar => "a similar argument exists: " ++ quoted similar
  | later owner word => quoted (owner ++ " " ++ word) ++ " exists"
  | asValue word => "to pass " ++ quoted word ++ " as a value, use " ++ quoted ("-- " ++ word)
  | command name =>
    "subcommand " ++ quoted name ++ " exists; to use it, remove the " ++ quoted "--" ++ " before it"
  | commands [similar] => "a similar subcommand exists: " ++ quoted similar
  | commands similar =>
    "some similar subcommands exist: " ++ ", ".intercalate (similar.map quoted)
  | value similar => "a similar value exists: " ++ quoted similar

/-- **A mistake.** -/
inductive Mistake where
  /-- The argument is none that the command takes. -/
  | unknownArgument (argument : String) (tip : Option Tip)
  /-- There is no such command. -/
  | unknownCommand (word : String) (similar : List String)
  /-- What takes a value has none. -/
  | missingValue (label : String) (words : List String)
  /-- The value is not accepted. -/
  | invalidValue (value label : String) (words : List String) (similar : Option String)
  /-- What takes no value has one. -/
  | surplusValue (value label : String)
  /-- The switch stands there twice. -/
  | repeated (label : String)
  /-- The operand is missing. -/
  | missingOperand (label : String)
  /-- The name of a command is missing. -/
  | missingCommand (tool : String) (commands : List String)

namespace Mistake

/-- A list of words in brackets on a line of its own, unless it is empty. -/
def wordList (heading : String) (words : List String) : String :=
  if words.isEmpty then "" else "\n  [" ++ heading ++ ": " ++ ", ".intercalate words ++ "]"

/-- What is said about a mistake. -/
def message : Mistake → String
  | unknownArgument argument _ => "unexpected argument " ++ quoted argument ++ " found"
  | unknownCommand word _ => "unrecognized subcommand " ++ quoted word
  | missingValue label words =>
    "a value is required for " ++ quoted label ++ " but none was supplied" ++
      wordList "possible values" words
  | invalidValue value label words _ =>
    "invalid value " ++ quoted value ++ " for " ++ quoted label ++ wordList "possible values" words
  | surplusValue value label =>
    "unexpected value " ++ quoted value ++ " for " ++ quoted label ++
      " found; no more were expected"
  | repeated label => "the argument " ++ quoted label ++ " cannot be used multiple times"
  | missingOperand label => "the following required arguments were not provided:\n  " ++ label
  | missingCommand tool commands =>
    quoted tool ++ " requires a subcommand but one was not provided" ++
      wordList "subcommands" commands

/-- The tip that goes with a mistake. -/
def tip? : Mistake → Option Tip
  | unknownArgument _ tip => tip
  | unknownCommand _ similar => if similar.isEmpty then none else some (.commands similar)
  | invalidValue _ _ _ similar => similar.map .value
  | _ => none

/-- **The report of a mistake**, with the usage line where it helps. -/
def report (mistake : Mistake) (usage : Option String) : String :=
  let tip := match mistake.tip? with
    | some tip => "\n\n  tip: " ++ tip.text
    | none => ""
  let usage := match usage with
    | some line => "\n\n" ++ line
    | none => ""
  "error: " ++ mistake.message ++ tip ++ usage ++
    "\n\nFor more information, try '--help'.\n"

end Mistake

end CommandLine

end ParenLambda
