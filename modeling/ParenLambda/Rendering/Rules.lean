import ParenLambda.Term

/-!
# Rendering rules

Every backend turns a program into text in the same way: the parts of a term are rendered before the
term itself, from left to right, and a rule for its kind puts the texts of the parts together. The
rules share a state, fresh for each program, in which an inlining backend keeps what the definitions
so far stand for. A rule for names is told whether the name is *bound*, that is whether an enclosing
abstraction of the same item of the program has it as its parameter.

`Rules.text` is this reading as a recursion on the term.
-/

namespace ParenLambda

/-- **A table of rendering rules** with states of type `σ`. -/
structure Rules (σ : Type) where
  /-- The state before the first item of a program. -/
  start : σ
  /-- The text of a program, from the texts of its items. -/
  program : List String → σ → String
  /-- The text of a definition, from its name and the text of its value. -/
  definition : String → String → StateM σ String
  /-- The text of an abstraction, from its parameter and the text of its body. -/
  abstraction : String → String → StateM σ String
  /-- The text of an application, from the texts of its operator and its operand. -/
  application : String → String → StateM σ String
  /-- The text of a name, which may be bound. Unless a rule says otherwise it is the name. -/
  atom : String → Bool → StateM σ String := fun name _ => pure name
  /-- The text of a sequence. Unless a rule says otherwise its members stand back to back. -/
  sequence : List String → StateM σ String := fun members => pure (String.join members)

namespace Rules

variable {σ : Type}

mutual

/-- **The text of a term** inside abstractions with the parameters `scope`, innermost first. -/
def text (rules : Rules σ) (scope : List String) : Term → StateM σ String
  | .atom name => rules.atom name (scope.contains name)
  | .definition name value => do
    let value ← text rules scope value
    rules.definition name value
  | .abstraction parameter body => do
    let body ← text rules (parameter :: scope) body
    rules.abstraction parameter body
  | .application operator operand => do
    let operator ← text rules scope operator
    let operand ← text rules scope operand
    rules.application operator operand
  | .sequence members => do
    let members ← texts rules scope members
    rules.sequence members

/-- The texts of a list of terms, in order. -/
def texts (rules : Rules σ) (scope : List String) : List Term → StateM σ (List String)
  | [] => pure []
  | term :: rest => do
    let head ← text rules scope term
    let tail ← texts rules scope rest
    pure (head :: tail)

end

end Rules

end ParenLambda
