import ParenLambda.Term
import ParenLambda.Text.Blank

/-!
# Backends

A backend renders programs as text of one target: a language with an interpreter, or the notation of
the lambda calculus on paper. It either keeps the definitions of a program as named bindings or puts
their values in place of the names. Text of a target with an interpreter may be preceded by a
prelude, which supplies what the interpreter needs to show a result.
-/

namespace ParenLambda

/-- What a backend's text is written in. -/
inductive Target where
  | javaScript
  | python
  /-- Notation only, with nothing to execute. -/
  | church
  deriving DecidableEq, Repr

/-- Whether text of the target can be handed to an interpreter. -/
def Target.isExecutable : Target → Bool
  | .church => false
  | _ => true

/-- The target in lower case. -/
def Target.word : Target → String
  | .javaScript => "javascript"
  | .python => "python"
  | .church => "church"

/-- What a backend does with definitions. -/
inductive Discipline where
  /-- They become named bindings of the output. -/
  | named
  /-- Their values replace the names that are used after them. -/
  | inlining
  deriving DecidableEq, Repr

/-- The discipline in a word. -/
def Discipline.word : Discipline → String
  | .named => "named"
  | .inlining => "inlining"

/-- **A backend.** -/
structure Backend where
  /-- The name it is known by. -/
  name : String
  /-- Further names it answers to. -/
  aliases : List String := []
  /-- The extension of files with its text. -/
  extension : String
  /-- What it renders, in one line. -/
  description : String
  /-- What its text is written in. -/
  target : Target
  /-- What it does with definitions. -/
  discipline : Discipline
  /-- The text of a program, behind the prelude if one is given and the target takes one. -/
  render : Program → Option String → String

namespace Backend

/-- Whether the backend answers to a name. -/
def answers (backend : Backend) (name : String) : Bool :=
  backend.name == name || backend.aliases.contains name

/-- The text of a program behind a prelude. The prelude loses the blanks at its end, and one blank
line follows it; an empty one leaves no trace. -/
def withPrelude (prelude : Option String) (body : String) : String :=
  match prelude with
  | none => body
  | some prelude =>
    let prelude := Text.trimEnd prelude
    if prelude.isEmpty then body else prelude ++ "\n\n" ++ body

/-- A name that a target can bind: one that the target reserves gets an underscore at its end. -/
def escape (reserved : List String) (name : String) : String :=
  if reserved.contains name then name ++ "_" else name

end Backend

end ParenLambda
