import ParenLambda.Rendering.Rules
import ParenLambda.Term.Worklist

/-!
# Rendering by a work list

Programs are rendered without recursion on the depth of their terms. A list of steps says what is
left to do, a pile of texts holds what is done, and the scope holds the parameters of the enclosing
abstractions, innermost first. Entering a term queues its parts and behind them the step that takes
their texts off the pile and runs the rule; the step that ends an abstraction also ends the scope of
its parameter. The pile always holds the texts a step needs; a run in which it did not would end
without an answer.
-/

namespace ParenLambda

namespace Rules

/-- One thing left to do. -/
inductive Step where
  /-- Render a term. -/
  | enter (term : Term)
  /-- Run the rule for a definition of a name. -/
  | definition (name : String)
  /-- Run the rule for an abstraction and end the scope of its parameter. -/
  | abstraction (parameter : String)
  /-- Run the rule for an application. -/
  | application
  /-- Run the rule for a sequence of so many members. -/
  | sequence (count : Nat)

namespace Step

/-- How many steps a step leads to, at most, itself included. -/
def cost : Step → Nat
  | enter term => 2 * term.size
  | definition _ => 1
  | abstraction _ => 1
  | application => 1
  | sequence _ => 1

/-- How many steps a list of steps leads to, at most. -/
def costAll : List Step → Nat
  | [] => 0
  | step :: rest => step.cost + costAll rest

theorem costAll_append (left right : List Step) :
    costAll (left ++ right) = costAll left + costAll right := by
  induction left with
  | nil => simp [costAll]
  | cons step left ih => simp [costAll, ih]; omega

/-- The steps of rendering the terms of a list one after the other. -/
def enterAll (terms : List Term) : List Step :=
  terms.map enter

theorem costAll_enterAll (terms : List Term) :
    costAll (enterAll terms) = 2 * Term.sizeAll terms := by
  induction terms with
  | nil => simp [enterAll, costAll, Term.sizeAll]
  | cons term terms ih =>
    simp only [enterAll] at ih
    simp [enterAll, costAll, cost, Term.sizeAll, ih]
    omega

end Step

variable {σ : Type}

/-- **Work through the steps**, in a scope, with a pile of the texts done so far and a state. The
answer is the pile and the state once no step is left. -/
def walk (rules : Rules σ) : List Step → List String → List String → σ → Option (List String × σ)
  | [], _, pile, state => some (pile, state)
  | .enter (.atom name) :: steps, scope, pile, state =>
    let (text, state) := rules.atom name (scope.contains name) state
    walk rules steps scope (text :: pile) state
  | .enter (.definition name value) :: steps, scope, pile, state =>
    walk rules (.enter value :: .definition name :: steps) scope pile state
  | .enter (.abstraction parameter body) :: steps, scope, pile, state =>
    walk rules (.enter body :: .abstraction parameter :: steps) (parameter :: scope) pile state
  | .enter (.application operator operand) :: steps, scope, pile, state =>
    walk rules (.enter operator :: .enter operand :: .application :: steps) scope pile state
  | .enter (.sequence members) :: steps, scope, pile, state =>
    walk rules (Step.enterAll members ++ .sequence members.length :: steps) scope pile state
  | .definition name :: steps, scope, value :: pile, state =>
    let (text, state) := rules.definition name value state
    walk rules steps scope (text :: pile) state
  | .abstraction parameter :: steps, scope, body :: pile, state =>
    let (text, state) := rules.abstraction parameter body state
    walk rules steps scope.tail (text :: pile) state
  | .application :: steps, scope, operand :: operator :: pile, state =>
    let (text, state) := rules.application operator operand state
    walk rules steps scope (text :: pile) state
  | .sequence count :: steps, scope, pile, state =>
    match unpile count pile with
    | none => none
    | some (members, pile) =>
      let (text, state) := rules.sequence members state
      walk rules steps scope (text :: pile) state
  | .definition _ :: _, _, [], _ => none
  | .abstraction _ :: _, _, [], _ => none
  | .application :: _, _, [], _ => none
  | .application :: _, _, [_], _ => none
termination_by steps => Step.costAll steps
decreasing_by
  all_goals
    simp only [Step.costAll, Step.costAll_append, Step.costAll_enterAll, Step.cost, Term.size]
    omega

/-- The text of one item of a program, and the state after it. -/
def item (rules : Rules σ) (term : Term) (state : σ) : String × σ :=
  match walk rules [.enter term] [] [] state with
  | some (text :: _, state) => (text, state)
  | _ => ("", state)

/-- The texts of the items of a program in order, and the state after them. -/
def items (rules : Rules σ) : List Term → σ → List String × σ
  | [], state => ([], state)
  | term :: rest, state =>
    let (text, state) := rules.item term state
    let (texts, state) := rules.items rest state
    (text :: texts, state)

/-- **Render a program** with a table of rules. -/
def render (rules : Rules σ) (program : Program) : String :=
  let (texts, state) := rules.items program.body rules.start
  rules.program texts state

end Rules

end ParenLambda
