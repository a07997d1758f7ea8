import ParenLambda.Proofs.Reading.Steps
import ParenLambda.Proofs.Relocation

/-!
# Lexemes at other places

What is read from lexemes depends on where they stand in one way only: the offsets of the lexemes show
up in the stretches of the forms and in the places of the faults. So any map of offsets, applied to the
lexemes, can be applied to the forms or to the fault instead (`ParenLambda.Form.readFrom_displace`), and
the terms are the same. Two maps are of interest: the one that adds the bytes of a text in front, and
the one that forgets all offsets.
-/

namespace ParenLambda

variable (move : Nat → Nat)

/-- A stretch with its two ends moved. -/
def Span.displace (span : Span) : Span :=
  ⟨move span.start, move span.stop⟩

/-- A lexeme with the ends of its stretch moved. -/
def Lexeme.displace (lexeme : Lexeme) : Lexeme :=
  ⟨lexeme.token, lexeme.span.displace move⟩

namespace Fault

/-- **A fault with its place moved.** -/
def displace : Fault → Fault
  | emptyGroup span => emptyGroup (span.displace move)
  | applicationArity found span => applicationArity found (span.displace move)
  | bindingArity kind name found span => bindingArity kind name found (span.displace move)
  | missingName kind found offset => missingName kind found (move offset)
  | unexpectedClosing offset => unexpectedClosing (move offset)
  | unclosedOpening offset => unclosedOpening (move offset)
  | unknownBackend name => unknownBackend name

@[simp] theorem message_displace (fault : Fault) : (fault.displace move).message = fault.message := by
  cases fault <;> rfl

theorem carries_displace : Carries (Span.displace move) (displace move) :=
  ⟨fun _ => rfl, fun _ _ => rfl, fun _ _ _ _ => rfl⟩

end Fault

namespace Form

/-- A form with the ends of all its stretches moved. -/
def displace (form : Form) : Form :=
  form.relocate (Span.displace move)

theorem Unintroduced.map_displace {lexemes : List Lexeme} (h : Unintroduced lexemes) :
    Unintroduced (lexemes.map (Lexeme.displace move)) := by
  cases lexemes with
  | nil =>
    rintro kind span rest ⟨⟩
  | cons first rest =>
    obtain ⟨token, span⟩ := first
    refine unintroduced_cons (fun kind hkind => ?_) _ _
    subst hkind
    exact h kind span rest rfl

/-- An open parenthesis with all offsets moved. -/
def Pending.displace (pending : Pending) : Pending :=
  ⟨pending.head, move pending.start, pending.reversed.map (Form.displace move)⟩

/-- How far reading has come, with all offsets moved. -/
def Progress.displace (progress : Progress) : Progress :=
  ⟨progress.pending.map (Pending.displace move), progress.reversed.map (Form.displace move)⟩

theorem Pending.close_displace (pending : Pending) (stop : Nat) :
    (pending.displace move).close (move stop) = (pending.close stop).displace move := by
  obtain ⟨head, start, reversed⟩ := pending
  cases head with
  | none => simp [close, Pending.displace, Form.displace, relocate, relocateAll_eq, Span.displace]
  | some head =>
    simp [close, Pending.displace, Form.displace, relocate, relocateAll_eq, Span.displace]

theorem Progress.add_displace (progress : Progress) (form : Form) :
    (progress.displace move).add (form.displace move) = (progress.add form).displace move := by
  obtain ⟨pending, reversed⟩ := progress
  cases pending <;> rfl

theorem Progress.leave_displace (progress : Progress) (span : Span) :
    (progress.displace move).leave (span.displace move) =
      ((progress.leave span).map (Progress.displace move)).mapError (Fault.displace move) := by
  obtain ⟨pending, reversed⟩ := progress
  cases pending with
  | nil => rfl
  | cons inner outer =>
    have hadd := Progress.add_displace move ⟨outer, reversed⟩ (inner.close span.stop)
    rw [← Pending.close_displace] at hadd
    exact congrArg Except.ok hadd

/-- **The forms of displaced lexemes** are displaced, and so is their first fault. -/
theorem readFrom_displace (progress : Progress) (lexemes : List Lexeme) :
    readFrom (progress.displace move) (lexemes.map (Lexeme.displace move)) =
      ((readFrom progress lexemes).map (List.map (displace move))).mapError
        (Fault.displace move) := by
  induction progress, lexemes using reading_induction with
  | nil progress =>
    obtain ⟨pending, reversed⟩ := progress
    cases pending with
    | cons inner outer => rfl
    | nil => exact congrArg Except.ok List.map_reverse.symm
  | binding progress span kind inner name behind rest ih =>
    rw [readFrom, ← ih]
    rfl
  | missing progress span kind inner other rest hother =>
    have hdisplaced : ∀ name, (other.displace move).token ≠ .atom name := hother
    rw [readFrom_missing progress hother]
    exact readFrom_missing _ hdisplaced kind _ _ _
  | ended progress span kind inner =>
    rw [readFrom]
    rfl
  | group progress span rest hrest ih =>
    rw [readFrom_group progress hrest, ← ih]
    exact readFrom_group _ (hrest.map_displace move) _
  | closing progress span rest ih =>
    have hleave := Progress.leave_displace move progress span
    rw [List.map_cons, Lexeme.displace, readFrom, readFrom, hleave]
    cases hresult : progress.leave span with
    | error fault => rfl
    | ok progress' => exact ih progress' hresult
  | introducer progress kind span rest ih =>
    rw [readFrom, ← ih, ← Progress.add_displace]
    rfl
  | atom progress name span rest ih =>
    rw [readFrom, ← ih, ← Progress.add_displace]
    rfl

end Form

/-- **The terms of displaced forms** are the same, and their fault is displaced. -/
theorem Term.ofForms_displace (forms : List Form) :
    ofForms (forms.map (Form.displace move)) = (ofForms forms).mapError (Fault.displace move) :=
  ofForms_relocate (Fault.carries_displace move) forms

end ParenLambda
