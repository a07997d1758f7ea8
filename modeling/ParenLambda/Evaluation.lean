import ParenLambda.Term

/-!
# Evaluation

What programs compute: call by value, operator before operand, in the order in which the rendered
programs compute it. A value is a function with the names it closes over, or one of the few values
that decoding brings in: a function that counts, a count, and two marks to choose between. The items
of a program are evaluated in order; a definition adds a name for the items after it, and the value
of the last other item is the value of the program.

Evaluation need not end, so it takes a bound on its depth. It ends in a value, it gets *stuck* (a
name without a meaning, an application of something that is no function), or it runs out of depth;
the three are kept apart, and a greater bound changes only the last.
-/

namespace ParenLambda

mutual

/-- **A value.** -/
inductive Value where
  /-- A function: its parameter, its body, and what the other names of the body mean. -/
  | closure (parameter : String) (body : Term) (scope : Scope)
  /-- The function that counts one up. -/
  | counter
  /-- A count. No bound is set to it: counting goes up by one with each call of the function that
  counts, so a counter of 64 bits shows the same unless it is called that many times. -/
  | count (n : Nat)
  /-- One of the two marks a boolean chooses between. -/
  | mark (truth : Bool)

/-- **What names mean**, latest first. -/
inductive Scope where
  /-- No name means anything. -/
  | empty
  /-- A name means a value, and the others mean what they meant before. -/
  | bind (name : String) (value : Value) (outer : Scope)

end

namespace Scope

/-- The value that a name was bound to last. -/
def find? (name : String) : Scope → Option Value
  | empty => none
  | bind bound value outer => if bound = name then some value else outer.find? name

end Scope

namespace Value

/-- A value as messages call it. -/
def describe : Value → String
  | closure parameter _ _ => "closure over " ++ parameter
  | counter => "native function"
  | count n => "integer " ++ toString n
  | mark true => "marker true"
  | mark false => "marker false"

end Value

/-- Why evaluation is stuck. -/
inductive Stuck where
  /-- A name that means nothing. -/
  | unbound (name : String)
  /-- A sequence without members. -/
  | emptySequence
  /-- A definition inside an expression. -/
  | innerDefinition (name : String)
  /-- A value that is no function, applied. -/
  | notApplicable (value : Value)
  /-- A value that is no count, counted up. -/
  | notCountable (value : Value)
  /-- A value that is no numeral, decoded as one. -/
  | notNumeral (value : Value)
  /-- A value that is no boolean, decoded as one. -/
  | notBoolean (value : Value)

/-- The wording of the reason. -/
def Stuck.message : Stuck → String
  | unbound name => "unbound name " ++ name
  | emptySequence => "empty group"
  | innerDefinition name => "declaration of " ++ name ++ " in expression"
  | notApplicable value => "cannot apply " ++ value.describe
  | notCountable value => "successor of " ++ value.describe
  | notNumeral value => "numeral produced " ++ value.describe
  | notBoolean value => "boolean produced " ++ value.describe

/-- Why evaluation ended without a value. -/
inductive Halt where
  /-- It cannot go on. -/
  | stuck (reason : Stuck)
  /-- It reached the bound on its depth. -/
  | exhausted

mutual

/-- **The value of a term** in a scope, where names not in the scope mean what the globals say. -/
def Term.eval (globals : Scope) : Nat → Scope → Term → Except Halt Value
  | 0, _, _ => .error .exhausted
  | _ + 1, scope, .atom name =>
    match scope.find? name with
    | some value => .ok value
    | none =>
      match globals.find? name with
      | some value => .ok value
      | none => .error (.stuck (.unbound name))
  | _ + 1, scope, .abstraction parameter body => .ok (.closure parameter body scope)
  | depth + 1, scope, .application operator operand => do
    let function ← Term.eval globals depth scope operator
    let argument ← Term.eval globals depth scope operand
    Value.apply globals depth function argument
  | _ + 1, _, .sequence [] => .error (.stuck .emptySequence)
  | depth + 1, scope, .sequence (first :: rest) => do
    let function ← Term.eval globals depth scope first
    Value.applyAll globals depth scope function rest
  | _ + 1, _, .definition name _ => .error (.stuck (.innerDefinition name))

/-- The value of a function at an argument. -/
def Value.apply (globals : Scope) : Nat → Value → Value → Except Halt Value
  | 0, _, _ => .error .exhausted
  | depth + 1, .closure parameter body scope, argument =>
    Term.eval globals depth (.bind parameter argument scope) body
  | _ + 1, .counter, .count n => .ok (.count (n + 1))
  | _ + 1, .counter, argument => .error (.stuck (.notCountable argument))
  | _ + 1, function, _ => .error (.stuck (.notApplicable function))

/-- The value of a function at the values of several terms, one after the other. -/
def Value.applyAll (globals : Scope) : Nat → Scope → Value → List Term → Except Halt Value
  | 0, _, _, _ => .error .exhausted
  | _ + 1, _, function, [] => .ok function
  | depth + 1, scope, function, term :: rest => do
    let argument ← Term.eval globals depth scope term
    let function ← Value.apply globals depth function argument
    Value.applyAll globals depth scope function rest

end

/-- What has come of the items of a program so far. -/
structure Machine where
  /-- What the defined names mean. -/
  globals : Scope
  /-- The value of the last item that was no definition. -/
  last : Option Value

namespace Machine

/-- Before the first item. -/
def start : Machine := ⟨.empty, none⟩

/-- Evaluate one more item. -/
def step (depth : Nat) (machine : Machine) : Term → Except Halt Machine
  | .definition name value => do
    let value ← value.eval machine.globals depth .empty
    pure { machine with globals := .bind name value machine.globals }
  | term => do
    let value ← term.eval machine.globals depth .empty
    pure { machine with last := some value }

/-- Evaluate a list of items. -/
def steps (depth : Nat) : Machine → List Term → Except Halt Machine
  | machine, [] => .ok machine
  | machine, term :: rest => do
    let machine ← machine.step depth term
    machine.steps depth rest

/-- **Evaluate a program.** -/
def run (depth : Nat) (program : Program) : Except Halt Machine :=
  start.steps depth program.body

end Machine

namespace Value

/-- The number a numeral stands for: how often it applies the counting function to zero. -/
def toNat (globals : Scope) (depth : Nat) (value : Value) : Except Halt Nat := do
  let counting ← value.apply globals depth .counter
  match ← counting.apply globals depth (.count 0) with
  | .count n => pure n
  | other => throw (.stuck (.notNumeral other))

/-- The truth value a boolean stands for: which of two marks it chooses. -/
def toBool (globals : Scope) (depth : Nat) (value : Value) : Except Halt Bool := do
  let choosing ← value.apply globals depth (.mark true)
  match ← choosing.apply globals depth (.mark false) with
  | .mark truth => pure truth
  | other => throw (.stuck (.notBoolean other))

end Value

/-- A bound on the depth that no program which ends in practice reaches. -/
def ampleDepth : Nat := 1000000000

end ParenLambda
