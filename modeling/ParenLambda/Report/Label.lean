import ParenLambda.Assembly
import ParenLambda.Text.Bytes

/-!
# Labels

A report points at a stretch of the file that the fault is in. A fault about a stretch of the source
labels that stretch, as far as the file reaches. A fault at a single byte labels the character that
starts there, or nothing if none does.
-/

namespace ParenLambda

/-- **A label**: a file and the stretch of its text that a report points at. -/
structure Label where
  /-- The name of the file. -/
  name : String
  /-- The text of the file. -/
  text : String
  /-- The labelled stretch, in bytes of the text. -/
  span : Span

namespace Label

/-- The end of the character of a text that starts at a byte, or that byte if no character starts
there. -/
def characterEnd (text : List Char) (offset : Nat) : Nat :=
  match Text.dropBytes? text offset with
  | some (c :: _) => offset + c.utf8Size
  | _ => offset

/-- The label of a stretch of an assembled source. -/
def ofSpan (assembly : Assembly) (span : Span) : Label :=
  let place := assembly.locate span.start
  let stop :=
    if span.size = 0 then characterEnd place.text.toList place.offset
    else min (place.offset + span.size) place.text.utf8ByteSize
  ⟨place.name, place.text, ⟨place.offset, stop⟩⟩

/-- **The label of a fault** in an assembled source, if the fault is about the source. -/
def ofFault? (assembly : Assembly) (fault : Fault) : Option Label :=
  fault.span?.map (ofSpan assembly)

end Label

/-- The advice that goes with a fault, if there is any. -/
def Fault.advice? : Fault → Option String
  | .applicationArity _ _ => some "write ((f a) b) to apply f to two arguments"
  | .emptyGroup _ => some "remove the empty parentheses"
  | _ => none

end ParenLambda
