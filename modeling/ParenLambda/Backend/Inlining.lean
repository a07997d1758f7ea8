import ParenLambda.Backend.Named

/-!
# Backends without definitions

A definition leaves no text of its own. The text of its value is recorded and stands for the name
wherever the name is used later and not bound by an abstraction; the last definition of a name
counts, and a use before the definition stays as it is. Recorded texts are put in as they are, so a
name that is free in one can be captured where it is used.
-/

namespace ParenLambda

/-- The texts that the definitions so far stand for, latest first. -/
abbrev Recorded := List (String × String)

namespace Recorded

/-- Record the text of a definition, which has no text of its own. -/
def define (name value : String) : StateM Recorded String := do
  modify ((name, value) :: ·)
  pure ""

/-- The text of a name: what it stands for if it is not bound and has been defined, and otherwise
the given spelling. -/
def use (name : String) (bound : Bool) (spelling : String) : StateM Recorded String := do
  let recorded ← get
  match recorded.lookup name with
  | some value => pure (if bound then spelling else value)
  | none => pure spelling

end Recorded

namespace JavaScript

/-- The items that have a text are separated by semicolons. -/
def inliningRules : Rules Recorded where
  start := []
  program items _ := ";\n".intercalate (items.filter fun item => !item.isEmpty)
  definition name value := Recorded.define name value
  abstraction parameter body := pure (function parameter body)
  application operator operand := pure (call operator operand)
  atom name bound := Recorded.use name bound (identifier name)

end JavaScript

/-- **JavaScript without definitions.** -/
def Backend.javaScriptInline : Backend where
  name := "javascript-inline"
  aliases := ["let-free", "point-free"]
  extension := "js"
  description := "JavaScript with every declaration inlined at its use sites"
  target := .javaScript
  discipline := .inlining
  render program prelude := Backend.withPrelude prelude (JavaScript.inliningRules.render program)

namespace Church

/-- The notation of the lambda calculus on paper. The items stand back to back, and no name is
reserved. -/
def rules : Rules Recorded where
  start := []
  program items _ := String.join items
  definition name value := Recorded.define name value
  abstraction parameter body := pure ("(λ " ++ parameter ++ "." ++ body ++ ")")
  application operator operand := pure ("(" ++ operator ++ ") (" ++ operand ++ ")")
  atom name bound := Recorded.use name bound name

end Church

/-- **The notation of the lambda calculus.** It takes no prelude. -/
def Backend.church : Backend where
  name := "church"
  aliases := ["lambda"]
  extension := "txt"
  description := "lambda-calculus notation with declarations inlined"
  target := .church
  discipline := .inlining
  render program _ := Church.rules.render program

end ParenLambda
