import ParenLambda.CommandLine.Grammar

/-!
# Help

The help of a command: what it does, how it is called, and lists of its commands, operands and
switches. In a summary every switch has one line; otherwise its explanation stands below it, with
one line for each value that one can choose.
-/

namespace ParenLambda

namespace CommandLine

/-- How much help is asked for. -/
inductive Detail where
  | summary
  | full
  deriving DecidableEq

/-- A text filled up with blanks to a width. -/
def fillTo (width : Nat) (text : String) : String :=
  text ++ String.ofList (List.replicate (width - text.length) ' ')

/-- The greatest length of some texts. -/
def widest (texts : List String) : Nat :=
  (texts.map String.length).foldl max 0

/-- Two columns, the first as wide as it has to be. -/
def columns (rows : List (String × String)) : List String :=
  let width := widest (rows.map (·.1))
  rows.map fun (left, right) => "  " ++ fillTo width left ++ "  " ++ right

/-- The place of a switch among those of equal rank. -/
def Switch.sortWord (switch : Switch) : String :=
  match switch.letter with
  | some letter => letter.toLower.toString ++ if letter.isLower then "0" else "1"
  | none => switch.word

/-- The switches of a command in the order of its help: the first ones of the command and of the tool,
then the second ones and so on, and those for help and the version at the end. -/
def Grammar.listed (grammar : Grammar) : List Switch :=
  let ranked := grammar.own.zipIdx ++ grammar.shared.zipIdx
  let before (a b : Switch × Nat) : Bool :=
    decide (a.2 < b.2) || (a.2 == b.2 && decide (a.1.sortWord ≤ b.1.sortWord))
  (ranked.mergeSort before).map (·.1) ++ grammar.standard

/-- A switch with its letter, as a list of switches shows it. -/
def Switch.entry (switch : Switch) : String :=
  match switch.letter with
  | some letter => "-" ++ letter.toString ++ ", " ++ switch.label
  | none => "    " ++ switch.label

/-- What a switch is for. The switch for help says how to get the other kind of help. -/
def Switch.explanation (detail : Detail) (switch : Switch) : String :=
  match switch.effect, detail with
  | .help, .summary => switch.help ++ " (see more with '--help')"
  | .help, .full => switch.help ++ " (see a summary with '-h')"
  | .option _ (.choice choices), .summary =>
    switch.help ++ " [possible values: " ++ ", ".intercalate (choices.map Choice.word) ++ "]"
  | _, _ => switch.help

/-- The lines on the values that a switch can take. -/
def Switch.choiceLines (switch : Switch) : List String :=
  match switch.effect with
  | .option _ (.choice choices) =>
    let width := widest (choices.map Choice.word) + 1
    "" :: "Possible values:" :: choices.map fun choice =>
      "- " ++ fillTo width (choice.word ++ ":") ++ " " ++ choice.help
  | _ => []

/-- A line below the thing that it explains. -/
def below (line : String) : String :=
  if line.isEmpty then line else "          " ++ line

/-- The lines of a list of things, each of which is given with the lines that explain it. -/
def explained (items : List (String × List String)) : List String :=
  (items.map fun (item, lines) => ("  " ++ item) :: lines.map below).intersperse [""] |>.flatten

/-- A part of the help under a heading, unless it is empty. -/
def part (heading : String) (lines : List String) : List String :=
  if lines.isEmpty then [] else "" :: heading :: lines

/-- The lines on the operand of a command. -/
def Grammar.operandLines (detail : Detail) (grammar : Grammar) : List String :=
  match grammar.operand with
  | none => []
  | some operand =>
    match detail with
    | .summary => columns [(operand.label, operand.help)]
    | .full => explained [(operand.label, [operand.help])]

/-- The lines on the switches of a command. -/
def Grammar.switchLines (detail : Detail) (grammar : Grammar) : List String :=
  match detail with
  | .summary =>
    columns (grammar.listed.map fun switch => (switch.entry, switch.explanation detail))
  | .full =>
    explained (grammar.listed.map fun switch =>
      (switch.entry, switch.explanation detail :: switch.choiceLines))

/-- Whether there is more to say on a command than its summary does: only where one can choose among
values. -/
def Grammar.hasDetails (grammar : Grammar) : Bool :=
  grammar.switches.any fun switch => !switch.choiceLines.isEmpty

/-- **The help of a command**, some of which take the name of a further command. -/
def Grammar.help (detail : Detail) (commands : List Grammar) (grammar : Grammar) : String :=
  let detail := if grammar.hasDetails then detail else .summary
  let commandLines :=
    if grammar.takesCommand then columns (commands.map fun command => (command.name, command.about))
    else []
  let lines := [grammar.about, "", grammar.usage] ++ part "Commands:" commandLines ++
    part "Arguments:" (grammar.operandLines detail) ++
    part "Options:" (grammar.switchLines detail)
  String.join (lines.map (· ++ "\n"))

end CommandLine

end ParenLambda
