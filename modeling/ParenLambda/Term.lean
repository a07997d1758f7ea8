/-!
# Terms and programs

The language proper: names, functions of one parameter, applications of one operator to one operand,
definitions, and sequences. A sequence is what a group that starts with a binding becomes; its
members stand back to back in the output and apply from left to right in evaluation. A program is a
list of terms, of which the definitions at the top name the others.
-/

namespace ParenLambda

/-- **A term** of the language. -/
inductive Term where
  /-- A name. -/
  | atom (name : String)
  /-- `(let NAME VALUE)` -/
  | definition (name : String) (value : Term)
  /-- `(λ PARAMETER BODY)` -/
  | abstraction (parameter : String) (body : Term)
  /-- `(OPERATOR OPERAND)` -/
  | application (operator operand : Term)
  /-- `(MEMBER … )` whose first member is a definition or an abstraction. -/
  | sequence (members : List Term)
  deriving Repr

namespace Term

/-- Whether a term is a definition or an abstraction. -/
def isBinding : Term → Bool
  | definition _ _ => true
  | abstraction _ _ => true
  | _ => false

mutual

/-- The number of terms in a term, itself included. -/
def size : Term → Nat
  | atom _ => 1
  | definition _ value => 1 + value.size
  | abstraction _ body => 1 + body.size
  | application operator operand => 1 + (operator.size + operand.size)
  | sequence members => 1 + sizeAll members

/-- The number of terms in a list of terms, at any depth. -/
def sizeAll : List Term → Nat
  | [] => 0
  | term :: rest => term.size + sizeAll rest

end

end Term

/-- **A program**: the terms of a source in order. -/
structure Program where
  /-- The terms. -/
  body : List Term
  deriving Repr

namespace Program

/-- The definitions at the top of a program, in order. -/
def definitions (program : Program) : List (String × Term) :=
  program.body.filterMap fun
    | .definition name value => some (name, value)
    | _ => none

/-- The value of the last definition of a name. -/
def definition? (program : Program) (name : String) : Option Term :=
  program.definitions.reverse.lookup name

end Program

end ParenLambda
