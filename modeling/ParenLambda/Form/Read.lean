import ParenLambda.Fault
import ParenLambda.Form

/-!
# Reading forms

Reading goes through the tokens once and keeps the parentheses that are still open, innermost first,
each with the forms read inside it so far. An opening parenthesis puts one more on the pile, a
closing one takes the innermost off and hands the finished form to the one below it. What is checked
is only that the parentheses match and that a name follows an introducer behind an opening
parenthesis; anywhere else an introducer is an ordinary word.
-/

namespace ParenLambda

namespace Form

/-- **An open parenthesis** and what has been read behind it. -/
structure Pending where
  /-- The introducer and the name, if the form is a binding. -/
  head : Option (Introducer × String)
  /-- The byte of the parenthesis. -/
  start : Nat
  /-- The forms inside it so far, last one first. -/
  reversed : List Form

/-- The finished form, once the closing parenthesis that ends at a byte is read. -/
def Pending.close (pending : Pending) (stop : Nat) : Form :=
  match pending.head with
  | none => .group pending.reversed.reverse ⟨pending.start, stop⟩
  | some (kind, name) => .binding kind name pending.reversed.reverse ⟨pending.start, stop⟩

/-- How far reading has come: the parentheses still open, and the forms outside all of them. -/
structure Progress where
  /-- The open parentheses, innermost first. -/
  pending : List Pending
  /-- The finished forms outside every parenthesis, last one first. -/
  reversed : List Form

namespace Progress

/-- Nothing read yet. -/
def empty : Progress := ⟨[], []⟩

/-- One more finished form, in the innermost open parenthesis. -/
def add (form : Form) : Progress → Progress
  | ⟨[], reversed⟩ => ⟨[], form :: reversed⟩
  | ⟨inner :: outer, reversed⟩ => ⟨{ inner with reversed := form :: inner.reversed } :: outer, reversed⟩

/-- One more open parenthesis. -/
def enter (head : Option (Introducer × String)) (start : Nat) (progress : Progress) : Progress :=
  { progress with pending := ⟨head, start, []⟩ :: progress.pending }

/-- The innermost parenthesis closed by the closing one at a span. -/
def leave (span : Span) : Progress → Except Fault Progress
  | ⟨[], _⟩ => .error (.unexpectedClosing span.start)
  | ⟨inner :: outer, reversed⟩ => .ok (add (inner.close span.stop) ⟨outer, reversed⟩)

/-- The forms read, once the tokens have ended. -/
def finish : Progress → Except Fault (List Form)
  | ⟨[], reversed⟩ => .ok reversed.reverse
  | ⟨inner :: _, _⟩ => .error (.unclosedOpening inner.start)

end Progress

/-- What messages say stands where the tokens have ended. -/
def endOfInput : String := "end of input"

/-- The forms of the tokens that are left, given how far reading has come. -/
def readFrom : Progress → List Lexeme → Except Fault (List Form)
  | progress, [] => progress.finish
  | progress, ⟨.opening, span⟩ :: ⟨.introducer kind, _⟩ :: ⟨.atom name, _⟩ :: rest =>
    readFrom (progress.enter (some (kind, name)) span.start) rest
  | _, ⟨.opening, _⟩ :: ⟨.introducer kind, _⟩ :: other :: _ =>
    .error (.missingName kind other.token.describe other.span.start)
  | _, [⟨.opening, _⟩, ⟨.introducer kind, span⟩] =>
    .error (.missingName kind endOfInput span.stop)
  | progress, ⟨.opening, span⟩ :: rest => readFrom (progress.enter none span.start) rest
  | progress, ⟨.closing, span⟩ :: rest =>
    match progress.leave span with
    | .error fault => .error fault
    | .ok progress => readFrom progress rest
  | progress, ⟨.introducer kind, _⟩ :: rest => readFrom (progress.add (.atom kind.word)) rest
  | progress, ⟨.atom name, _⟩ :: rest => readFrom (progress.add (.atom name)) rest

/-- **The forms of a list of tokens**, or the first fault in them. -/
def read (lexemes : List Lexeme) : Except Fault (List Form) :=
  readFrom .empty lexemes

end Form

end ParenLambda
