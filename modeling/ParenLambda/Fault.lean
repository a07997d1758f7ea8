import ParenLambda.Token

/-!
# Faults

Every way in which a source can fail to compile. A fault is a cause with what is needed to report it;
its wording is `Fault.message`, and its place, if it has one, is `Fault.span?`. The first fault found
ends the compilation.
-/

namespace ParenLambda

/-- **A fault** of a source, or of the request to render it. -/
inductive Fault where
  /-- A pair of parentheses with nothing between them. -/
  | emptyGroup (span : Span)
  /-- A group that is no sequence and has not exactly two members. -/
  | applicationArity (found : Nat) (span : Span)
  /-- A binding with not exactly one expression after its name. -/
  | bindingArity (kind : Introducer) (name : String) (found : Nat) (span : Span)
  /-- An introducer that something other than a name follows; `found` says what. -/
  | missingName (kind : Introducer) (found : String) (offset : Nat)
  /-- A closing parenthesis without an opening one. -/
  | unexpectedClosing (offset : Nat)
  /-- An opening parenthesis without a closing one. -/
  | unclosedOpening (offset : Nat)
  /-- A backend that is not in the catalogue. -/
  | unknownBackend (name : String)
  deriving DecidableEq, Repr

namespace Fault

/-- The wording of a fault. -/
def message : Fault → String
  | emptyGroup _ => "encountered an empty group; every group needs at least one member"
  | applicationArity found _ =>
    "an application takes exactly one operator and one operand, found " ++ toString found ++
      " members"
  | bindingArity kind name found _ =>
    "(" ++ kind.word ++ " " ++ name ++ " ...) must have exactly one body expression, found " ++
      toString found
  | missingName kind found _ => "'" ++ kind.word ++ "' must be followed by a name, found " ++ found
  | unexpectedClosing _ => "unexpected ')' with no open group"
  | unclosedOpening _ => "'(' is never closed"
  | unknownBackend name => "unknown backend '" ++ name ++ "'"

/-- The stretch of the source that a fault is about. A fault at a single offset has an empty one, and
a fault that is not about the source has none. -/
def span? : Fault → Option Span
  | emptyGroup span => some span
  | applicationArity _ span => some span
  | bindingArity _ _ _ span => some span
  | missingName _ _ offset => some (.point offset)
  | unexpectedClosing offset => some (.point offset)
  | unclosedOpening offset => some (.point offset)
  | unknownBackend _ => none

/-- The byte of the source at which a fault was found. -/
def offset? (fault : Fault) : Option Nat :=
  fault.span?.map Span.start

/-- The fault of the same source behind a text of so many bytes. -/
def shift (bytes : Nat) : Fault → Fault
  | emptyGroup span => emptyGroup (span.shift bytes)
  | applicationArity found span => applicationArity found (span.shift bytes)
  | bindingArity kind name found span => bindingArity kind name found (span.shift bytes)
  | missingName kind found offset => missingName kind found (offset + bytes)
  | unexpectedClosing offset => unexpectedClosing (offset + bytes)
  | unclosedOpening offset => unclosedOpening (offset + bytes)
  | unknownBackend name => unknownBackend name

@[simp] theorem message_shift (bytes : Nat) (fault : Fault) :
    (fault.shift bytes).message = fault.message := by
  cases fault <;> rfl

end Fault

end ParenLambda
