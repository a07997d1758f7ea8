import ParenLambda.Backend
import ParenLambda.Rendering.Outline
import ParenLambda.Rendering.Walk

/-!
# Backends that summarise

A backend need not render for a target. One that summarises shows what it was given: its own
description, the number of items, the prelude as it came, and the bracketed outline of the program.
It can be entered in a catalogue under any name, with any target and discipline.
-/

namespace ParenLambda

/-- What a summary shows of a program and a prelude. -/
def Backend.summarise (description : String) (program : Program) (prelude : Option String) :
    String :=
  "/".intercalate [description, toString program.body.length, prelude.getD "-",
    Rules.bracketed.render program]

/-- **A backend that summarises.** -/
def Backend.summary (name : String) (aliases : List String) (extension description : String)
    (target : Target) (discipline : Discipline) : Backend where
  name := name
  aliases := aliases
  extension := extension
  description := description
  target := target
  discipline := discipline
  render := Backend.summarise description

end ParenLambda
