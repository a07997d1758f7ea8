import ParenLambda.CommandLine.Reading

/-!
# Reading command lines

Arguments are read from left to right. An argument that starts with two hyphens is a switch by its
word, one that starts with a single hyphen is a cluster of switches by their letters, and any other
is the value of the switch before it, the name of a command, or an operand. After two hyphens by
themselves only operands follow.

Since a value is looked at only when something else begins, an argument that no grammar knows is
reported before a value that is not accepted, even if it stands behind it.
-/

namespace ParenLambda

namespace CommandLine

/-! ### Switches -/

/-- The stop at a word that is no switch. A similar switch of the command is suggested, or else one of
a command that is named later on, or else to pass the argument as a value. -/
def unknownWord (grammar : Grammar) (commands : List Grammar) (word : String) (rest : List String)
    (reading : Reading) : Stop :=
  let reading := (reading.settle grammar).1
  let argument := "--" ++ word
  let closest (candidate : Grammar) : Option String :=
    (Text.similar word (candidate.switches.map Switch.word)).getLast?
  match closest grammar with
  | some similar =>
    let reading :=
      match grammar.ofWord? similar with
      | some switch =>
        if reading.isFilled (.switch switch) then reading else reading.fill (.switch switch) none
      | none => reading
    .mistake (.unknownArgument argument (some (.argument ("--" ++ similar))))
      (some (reading.usage grammar))
  | none =>
    let later := rest.findSome? fun name =>
      (commands.find? (·.name == name)).bind fun command =>
        (closest command).map fun similar => Tip.later command.name ("--" ++ similar)
    let tip := later <|> if grammar.operand.isSome then some (.asValue argument) else none
    .mistake (.unknownArgument argument tip) (some (reading.usage grammar))

/-- Read a switch by its word. -/
def Reading.addWord (grammar : Grammar) (commands : List Grammar) (word : String)
    (value : Option String) (rest : List String) (reading : Reading) : Except Stop Reading :=
  match grammar.ofWord? word with
  | none => .error (unknownWord grammar commands word rest reading)
  | some switch =>
    match value with
    | none => reading.addSwitch grammar .full switch
    | some value =>
      match switch.effect with
      | .option _ _ => reading.addValue grammar switch value
      | _ => .error (.mistake (.surplusValue value switch.label) (some (reading.usage grammar)))

/-- Read a cluster of switches by their letters. What follows a switch that takes a value is the
value, with or without an equals sign before it. -/
def Reading.addCluster (grammar : Grammar) : List Char → Reading → Except Stop Reading
  | [], reading => .ok reading
  | letter :: rest, reading =>
    match grammar.ofLetter? letter with
    | none =>
      let argument := "-" ++ letter.toString
      let tip := if grammar.operand.isSome then some (.asValue argument) else none
      .error (.misuse grammar (.unknownArgument argument tip))
    | some switch =>
      match switch.effect, rest with
      | .option _ _, '=' :: value => reading.addValue grammar switch (String.ofList value)
      | .option _ _, c :: value => reading.addValue grammar switch (String.ofList (c :: value))
      | _, rest => do addCluster grammar rest (← reading.addSwitch grammar .summary switch)

/-! ### Operands -/

/-- The stop at an argument that is one too many. Where a command is expected, it is taken for one. -/
def surplus (grammar : Grammar) (commands : List Grammar) (argument : String) (reading : Reading) :
    Stop :=
  if !grammar.takesCommand then .misuse grammar (.unknownArgument argument none)
  else if reading.operandsOnly && commands.any (·.answers argument) then
    .misuse grammar (.unknownArgument argument (some (.command argument)))
  else
    let names := commands.flatMap fun command => command.name :: command.aliases
    .misuse grammar (.unknownCommand argument (Text.similar argument names))

/-- Read an operand. -/
def Reading.addOperand (grammar : Grammar) (commands : List Grammar) (argument : String)
    (reading : Reading) : Except Stop Reading :=
  match grammar.operand with
  | none => .error (surplus grammar commands argument reading)
  | some operand =>
    if reading.hasOperand then .error (surplus grammar commands argument reading)
    else do
      let reading ← reading.settled grammar
      pure { reading with pending := some (.operand operand, some argument), hasOperand := true }

/-! ### The line -/

/-- The word of a switch and the value attached to it by an equals sign. -/
def splitValue (text : List Char) : String × Option String :=
  let word := text.takeWhile (· != '=')
  (String.ofList word, (text.drop word.length).tail?.map String.ofList)

/-- Read one argument that is not the name of a command. -/
def Reading.add (grammar : Grammar) (commands : List Grammar) (argument : String)
    (rest : List String) (reading : Reading) : Except Stop Reading :=
  if reading.operandsOnly then reading.addOperand grammar commands argument
  else
    match argument.toList with
    | ['-', '-'] => .ok { reading with operandsOnly := true }
    | '-' :: '-' :: text =>
      let (word, value) := splitValue text
      reading.addWord grammar commands word value rest
    | '-' :: c :: letters => reading.addCluster grammar (c :: letters)
    | _ =>
      match reading.pending with
      | some (slot, none) => .ok { reading with pending := some (slot, some argument) }
      | _ => reading.addOperand grammar commands argument

/-- Read arguments up to the name of a command, which is given along with what follows it. -/
def Reading.addAll (grammar : Grammar) (commands : List Grammar) :
    List String → Reading → Except Stop (Reading × Option (Grammar × List String))
  | [], reading => .ok (reading, none)
  | argument :: rest, reading =>
    let command? :=
      if grammar.takesCommand && !reading.operandsOnly && !reading.awaitsValue then
        commands.find? (·.answers argument)
      else none
    match command? with
    | some command => .ok (reading, some (command, rest))
    | none => do addAll grammar commands rest (← reading.add grammar commands argument rest)

/-- Check that what a command needs has been read. -/
def Reading.finish (grammar : Grammar) (reading : Reading) : Except Stop Reading := do
  let reading ← reading.settled grammar
  match grammar.operand with
  | some operand =>
    if reading.hasOperand then pure reading
    else
      let labels := reading.filled.map (·.1.label)
      throw (.mistake (.missingOperand operand.label) (some (grammar.usageWith labels)))
  | none => pure reading

/-- **Read the arguments of a command** that takes no further command. -/
def readCommand (grammar : Grammar) (arguments : List String) : Except Stop Reading := do
  let (reading, _) ← Reading.addAll grammar [] arguments {}
  reading.finish grammar

/-! ### Tools -/

/-- A tool: its own grammar, those of its commands, and that of the command that gives help. -/
structure Tool where
  /-- The grammar of what precedes the name of a command. -/
  top : Grammar
  /-- The grammars of its commands. -/
  commands : List Grammar
  /-- The grammar of the command that gives help. -/
  helper : Grammar

/-- All commands of a tool. -/
def Tool.allCommands (tool : Tool) : List Grammar :=
  tool.commands ++ [tool.helper]

/-- What the command that gives help stops with: the help of the command that is named, or of the tool
if none is. -/
def Tool.helpOn (tool : Tool) : List String → Stop
  | [] => .help .full tool.top
  | name :: rest =>
    match tool.allCommands.find? (·.answers name) with
    | none => .misuse tool.top (.unknownCommand name [])
    | some command =>
      match rest with
      | [] => .help .full command
      | word :: _ => .misuse command (.unknownCommand word [])

/-- **Read a command line:** what precedes the name of the command, the grammar of the command, and
what follows its name. What follows is checked first. -/
def Tool.read (tool : Tool) (arguments : List String) :
    Except Stop (Reading × Grammar × Reading) := do
  let (outer, command?) ← Reading.addAll tool.top tool.allCommands arguments {}
  match command? with
  | none =>
    let outer ← outer.settled tool.top
    if outer.filled.isEmpty then throw (.idle tool.top)
    let names := tool.allCommands.flatMap fun command => command.name :: command.aliases
    throw (.misuse tool.top (.missingCommand tool.top.name names))
  | some (command, rest) =>
    if command.name == tool.helper.name then throw (tool.helpOn rest)
    let inner ← readCommand command rest
    let outer ← outer.settled tool.top
    pure (outer, command, inner)

end CommandLine

end ParenLambda
