import ParenLambda.Proofs.Displacement
import ParenLambda.Proofs.Scanning.Steps

/-!
# Sources that start further right

A source behind another text has all its places moved to the right by the size of that text, and
nothing else about it changes. Each stage of compiling is followed in turn: the lexemes of a text
that is scanned from a later byte are those of the text, moved; the forms of moved lexemes are moved
forms and their faults moved faults; and the terms of moved forms are the same terms, since a term
has no place, while the faults are moved once more.
-/

namespace ParenLambda

/-! ### Lexemes -/

/-- The lexeme of the same source behind a text of so many bytes. -/
def Lexeme.shift (bytes : Nat) (lexeme : Lexeme) : Lexeme :=
  ⟨lexeme.token, lexeme.span.shift bytes⟩

namespace Fragment

/-- What the scanner is in the middle of, in the same source behind a text of so many bytes. -/
def Reading.shift (bytes : Nat) : Reading → Reading
  | .between => .between
  | .comment => .comment
  | .run start reversed => .run (start + bytes) reversed

theorem lexeme_shift (text : List Char) (start bytes : Nat) (behind : Option Char) :
    lexeme ⟨text, start + bytes, behind⟩ = (lexeme ⟨text, start, behind⟩).shift bytes := by
  simp only [lexeme, span, Lexeme.shift, Span.shift, Lexeme.mk.injEq, Span.mk.injEq, true_and]
  exact ⟨rfl, by omega⟩

theorem breakLexemes_shift (c : Char) (position bytes : Nat) :
    breakLexemes c (position + bytes) = (breakLexemes c position).map (Lexeme.shift bytes) := by
  rw [breakLexemes, breakLexemes]
  by_cases h : isParenthesis c
  · rw [if_pos h, if_pos h, lexeme_shift, List.map_singleton]
  · rw [if_neg h, if_neg h, List.map_nil]

theorem Reading.emitted_shift (reading : Reading) (position bytes : Nat) (c : Char) :
    (reading.shift bytes).emitted (position + bytes) c =
      (reading.emitted position c).map (Lexeme.shift bytes) := by
  cases reading with
  | comment => rfl
  | between =>
    rw [shift, emitted, emitted]
    by_cases h : isOrdinary c
    · rw [if_pos h, if_pos h, List.map_nil]
    · rw [if_neg h, if_neg h, breakLexemes_shift]
  | run start reversed =>
    rw [shift, emitted, emitted]
    by_cases h : isOrdinary c
    · rw [if_pos h, if_pos h, List.map_nil]
    · rw [if_neg h, if_neg h, breakLexemes_shift, List.map_cons, runLexeme, lexeme_shift]
      rfl

theorem Reading.next_shift (reading : Reading) (position bytes : Nat) (c : Char) :
    (reading.shift bytes).next (position + bytes) c = (reading.next position c).shift bytes := by
  have hbreak : (afterBreak c).shift bytes = afterBreak c := by
    rw [afterBreak]
    by_cases h : c = ';'
    · rw [if_pos h]
      rfl
    · rw [if_neg h]
      rfl
  cases reading with
  | comment =>
    rw [shift, next, next]
    by_cases h : c = '\n'
    · rw [if_pos h]
      rfl
    · rw [if_neg h]
      rfl
  | between =>
    rw [shift, next, next]
    by_cases h : isOrdinary c
    · rw [if_pos h, if_pos h]
      rfl
    · rw [if_neg h, if_neg h, hbreak]
  | run start reversed =>
    rw [shift, next, next]
    by_cases h : isOrdinary c
    · rw [if_pos h, if_pos h]
      rfl
    · rw [if_neg h, if_neg h, hbreak]

/-- **The lexemes of a text that starts further right.** -/
theorem lexemesFrom_shift (reading : Reading) (position bytes : Nat) (text : List Char) :
    lexemesFrom (reading.shift bytes) (position + bytes) text =
      (lexemesFrom reading position text).map (Lexeme.shift bytes) := by
  induction text generalizing reading position with
  | nil =>
    rw [lexemesFrom_nil, lexemesFrom_nil]
    cases reading with
    | run start reversed =>
      rw [Reading.shift, Reading.pending, runLexeme, lexeme_shift]
      rfl
    | _ => rfl
  | cons c rest ih =>
    rw [lexemesFrom_cons, lexemesFrom_cons, List.map_append, Reading.emitted_shift,
      Reading.next_shift, ← ih, Nat.add_right_comm]

end Fragment

/-! ### Forms -/

theorem Fault.shift_eq_displace (bytes : Nat) : Fault.shift bytes = Fault.displace (· + bytes) := by
  funext fault
  cases fault <;> rfl

namespace Form

/-- The form of the same source behind a text of so many bytes. -/
def shift (bytes : Nat) (form : Form) : Form :=
  form.relocate (Span.shift bytes)

variable (bytes : Nat)

/-- An open parenthesis of the same source behind a text of so many bytes. -/
def Pending.shift (pending : Pending) : Pending :=
  ⟨pending.head, pending.start + bytes, pending.reversed.map (Form.shift bytes)⟩

/-- How far reading has come in the same source behind a text of so many bytes. -/
def Progress.shift (progress : Progress) : Progress :=
  ⟨progress.pending.map (Pending.shift bytes), progress.reversed.map (Form.shift bytes)⟩

/-- **The forms of lexemes that stand further right**, or their first fault. -/
theorem readFrom_shift (progress : Progress) (lexemes : List Lexeme) :
    readFrom (progress.shift bytes) (lexemes.map (Lexeme.shift bytes)) =
      ((readFrom progress lexemes).map (List.map (shift bytes))).mapError (Fault.shift bytes) := by
  rw [Fault.shift_eq_displace]
  exact readFrom_displace (· + bytes) progress lexemes

end Form

/-! ### Terms -/

/-- **The terms of forms that stand further right** are the same, and their fault stands further
right. -/
theorem Term.ofForms_shift (bytes : Nat) (forms : List Form) :
    ofForms (forms.map (Form.shift bytes)) = (ofForms forms).mapError (Fault.shift bytes) := by
  rw [Fault.shift_eq_displace]
  exact ofForms_displace (· + bytes) forms

end ParenLambda
