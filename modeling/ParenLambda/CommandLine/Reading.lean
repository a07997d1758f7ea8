import ParenLambda.CommandLine.Help
import ParenLambda.CommandLine.Mistake
import ParenLambda.Text.Similarity

/-!
# Readings

What has been read of the arguments of a command: the slots of its grammar that are filled. A value
is looked at only when the next switch or operand begins, or when the line ends, so the slot begun
last is kept apart until then.
-/

namespace ParenLambda

namespace CommandLine

/-- What a value can belong to. -/
inductive Slot where
  | switch (switch : Switch)
  | operand (operand : Operand)

namespace Slot

/-- The slot as messages show it. -/
def label : Slot → String
  | switch s => s.label
  | operand o => o.label

/-- The values that a slot accepts. -/
def values : Slot → Values
  | switch s =>
    match s.effect with
    | .option _ values => values
    | _ => .text
  | operand _ => .path

end Slot

/-- **What has been read** of the arguments of a command. -/
structure Reading where
  /-- The slots that are filled, with their values. -/
  filled : List (Slot × Option String) := []
  /-- The slot that was begun last, with its value if it has one already. -/
  pending : Option (Slot × Option String) := none
  /-- Whether the operand has been read. -/
  hasOperand : Bool := false
  /-- Whether only operands follow. -/
  operandsOnly : Bool := false

namespace Reading

/-- Whether a slot is filled. -/
def isFilled (reading : Reading) (slot : Slot) : Bool :=
  reading.filled.any (·.1.label == slot.label)

/-- Empty a slot. -/
def clear (reading : Reading) (slot : Slot) : Reading :=
  { reading with filled := reading.filled.filter (·.1.label != slot.label) }

/-- Fill a slot. -/
def fill (reading : Reading) (slot : Slot) (value : Option String) : Reading :=
  { reading with filled := reading.filled ++ [(slot, value)] }

/-- Whether the value of a switch has to come next. -/
def awaitsValue (reading : Reading) : Bool :=
  match reading.pending with
  | some (_, none) => true
  | _ => false

/-- Whether the switch of a word is set. -/
def isSet (reading : Reading) (word : String) : Bool :=
  reading.filled.any fun (slot, _) =>
    match slot with
    | .switch switch => switch.word == word
    | .operand _ => false

/-- The value of the switch of a word. -/
def value? (reading : Reading) (word : String) : Option String :=
  reading.filled.findSome? fun (slot, value) =>
    match slot with
    | .switch switch => if switch.word == word then value else none
    | .operand _ => none

/-- The value of the operand. -/
def operand? (reading : Reading) : Option String :=
  reading.filled.findSome? fun (slot, value) =>
    match slot with
    | .switch _ => none
    | .operand _ => value

end Reading

/-! ### Results -/

/-- What ends the reading of a command line early. -/
inductive Stop where
  /-- Help is asked for. -/
  | help (detail : Detail) (grammar : Grammar)
  /-- The version is asked for. -/
  | version
  /-- Nothing is asked for. -/
  | idle (grammar : Grammar)
  /-- There is a mistake. -/
  | mistake (mistake : Mistake) (usage : Option String)

/-- A mistake after which the usage line of the command is shown. -/
def Stop.misuse (grammar : Grammar) (mistake : Mistake) : Stop :=
  .mistake mistake (some grammar.usage)

/-- The usage line that shows the switches which have been read, besides those that are needed. The
general one is shown if nothing has been read. -/
def Reading.usage (reading : Reading) (grammar : Grammar) : String :=
  if reading.filled.isEmpty then grammar.usage
  else
    grammar.usageWith (reading.filled.filterMap fun (slot, _) =>
      match slot with
      | .switch switch => some switch.label
      | .operand _ => none)

/-! ### Filling slots -/

/-- What is wrong with the value of a slot. -/
def Slot.check? (slot : Slot) (value : String) : Option Stop :=
  if slot.values.accepts value then none
  else if value.isEmpty then some (.mistake (.missingValue slot.label slot.values.words) none)
  else
    let similar := (Text.similar value slot.values.words).getLast?
    some (.mistake (.invalidValue value slot.label slot.values.words similar) none)

/-- Fill the slot that was begun last. If that is a mistake, it is given along with what has been
read in spite of it. -/
def Reading.settle (grammar : Grammar) (reading : Reading) : Reading × Option Stop :=
  match reading.pending with
  | none => (reading, none)
  | some (slot, value) =>
    let reading := { reading with pending := none }
    match value with
    | none => (reading, some (.mistake (.missingValue slot.label slot.values.words) none))
    | some value =>
      if reading.isFilled slot then
        (reading.clear slot, some (.misuse grammar (.repeated slot.label)))
      else (reading.fill slot (some value), slot.check? value)

/-- Fill the slot that was begun last, which has to be without mistakes. -/
def Reading.settled (grammar : Grammar) (reading : Reading) : Except Stop Reading :=
  match reading.settle grammar with
  | (reading, none) => .ok reading
  | (_, some stop) => .error stop

/-- Read a switch that has no value attached. A switch by its word asks for all the help there is. -/
def Reading.addSwitch (grammar : Grammar) (detail : Detail) (switch : Switch) (reading : Reading) :
    Except Stop Reading := do
  let reading ← reading.settled grammar
  let slot := Slot.switch switch
  match switch.effect with
  | .flag =>
    if reading.isFilled slot then throw (.misuse grammar (.repeated switch.label))
    pure (reading.fill slot none)
  | .counter => pure ((reading.clear slot).fill slot none)
  | .option _ _ => pure { reading with pending := some (slot, none) }
  | .help => throw (.help detail grammar)
  | .version => throw .version

/-- Read a switch with a value attached. -/
def Reading.addValue (grammar : Grammar) (switch : Switch) (value : String) (reading : Reading) :
    Except Stop Reading := do
  let reading ← reading.settled grammar
  Reading.settled grammar { reading with pending := some (.switch switch, some value) }

end CommandLine

end ParenLambda
