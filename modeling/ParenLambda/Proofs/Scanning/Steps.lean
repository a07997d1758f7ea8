import ParenLambda.Token.Scan

/-!
# Scanning one character at a time

The scanner is a machine that reads a source once. This file gives its steps: what a character
completes (`ParenLambda.Fragment.Reading.emitted`), what the scanner is in the middle of afterwards
(`ParenLambda.Fragment.Reading.next`), and what the end of the source completes
(`ParenLambda.Fragment.Reading.pending`). From the step follows what a whole text does
(`ParenLambda.Fragment.lexemesFrom_append`): scanning one text behind another is scanning the first,
and then the second from the state that the first leaves.

The steps speak of lexemes and not of fragments, because a fragment knows the character behind it.
That character is looked at only where a run has ended, and there it has been read.
-/

namespace ParenLambda

namespace Fragment

/-- The lexemes of the characters from a byte on, given what the scanner is in the middle of. -/
def lexemesFrom (reading : Reading) (position : Nat) (text : List Char) : List Lexeme :=
  (scanFrom reading position text).map lexeme

/-- The lexeme of a run: its characters, last one first, and the character behind it. -/
def runLexeme (start : Nat) (reversed : List Char) (behind : Option Char) : Lexeme :=
  lexeme ⟨reversed.reverse, start, behind⟩

/-- The lexeme that a character which is not part of a run makes by itself, if any. -/
def breakLexemes (c : Char) (position : Nat) : List Lexeme :=
  if isParenthesis c then [lexeme ⟨[c], position, none⟩] else []

/-- The token of a parenthesis does not depend on the character behind it. -/
theorem lexeme_parenthesis {c : Char} (h : isParenthesis c) (position : Nat)
    (behind : Option Char) : lexeme ⟨[c], position, behind⟩ = lexeme ⟨[c], position, none⟩ := by
  simp only [isParenthesis, Bool.or_eq_true, beq_iff_eq] at h
  rcases h with rfl | rfl <;> rfl

theorem map_lexeme_ofBreak (c : Char) (position : Nat) (rest : List Char) :
    (ofBreak c position rest).map lexeme = breakLexemes c position := by
  rw [ofBreak, breakLexemes]
  by_cases h : isParenthesis c
  · rw [if_pos h, if_pos h, List.map_singleton, lexeme_parenthesis h]
  · rw [if_neg h, if_neg h, List.map_nil]

namespace Reading

/-- What the scanner is in the middle of after a character. -/
def next (position : Nat) (c : Char) : Reading → Reading
  | .comment => if c = '\n' then .between else .comment
  | .between => if isOrdinary c then .run position [c] else .afterBreak c
  | .run start reversed => if isOrdinary c then .run start (c :: reversed) else .afterBreak c

/-- The lexemes that a character completes. -/
def emitted (position : Nat) (c : Char) : Reading → List Lexeme
  | .comment => []
  | .between => if isOrdinary c then [] else breakLexemes c position
  | .run start reversed =>
    if isOrdinary c then [] else runLexeme start reversed (some c) :: breakLexemes c position

/-- The lexemes that the end of the source completes. -/
def pending : Reading → List Lexeme
  | .run start reversed => [runLexeme start reversed none]
  | .between => []
  | .comment => []

/-- What the scanner is in the middle of after a text. -/
def after : Reading → Nat → List Char → Reading
  | reading, _, [] => reading
  | reading, position, c :: rest => (reading.next position c).after (position + c.utf8Size) rest

/-- The lexemes that the characters of a text complete. -/
def emittedBy : Reading → Nat → List Char → List Lexeme
  | _, _, [] => []
  | reading, position, c :: rest =>
    reading.emitted position c ++ (reading.next position c).emittedBy (position + c.utf8Size) rest

end Reading

/-! ### One step and one text -/

variable (reading : Reading) (position : Nat)

@[simp] theorem lexemesFrom_nil : lexemesFrom reading position [] = reading.pending := by
  cases reading <;> rfl

/-- **One step of the scanner.** -/
theorem lexemesFrom_cons (c : Char) (rest : List Char) :
    lexemesFrom reading position (c :: rest) =
      reading.emitted position c ++
        lexemesFrom (reading.next position c) (position + c.utf8Size) rest := by
  cases reading with
  | comment => rfl
  | between =>
    rw [lexemesFrom, scanFrom, Reading.emitted, Reading.next]
    by_cases h : isOrdinary c
    · rw [if_pos h, if_pos h, if_pos h]
      rfl
    · rw [if_neg h, if_neg h, if_neg h, List.map_append, map_lexeme_ofBreak]
      rfl
  | run start reversed =>
    rw [lexemesFrom, scanFrom, Reading.emitted, Reading.next]
    by_cases h : isOrdinary c
    · rw [if_pos h, if_pos h, if_pos h]
      rfl
    · rw [if_neg h, if_neg h, if_neg h, List.map_cons, List.map_append, map_lexeme_ofBreak]
      rfl

/-- **Scanning a text behind another**: the first text completes its lexemes and leaves a state, from
which the second is scanned. -/
theorem lexemesFrom_append (left right : List Char) :
    lexemesFrom reading position (left ++ right) =
      reading.emittedBy position left ++
        lexemesFrom (reading.after position left) (position + Text.byteSize left) right := by
  induction left generalizing reading position with
  | nil => rfl
  | cons c left ih =>
    rw [List.cons_append, lexemesFrom_cons, ih, Reading.emittedBy, Reading.after,
      List.append_assoc, Text.byteSize_cons, Nat.add_assoc]

/-- The lexemes of a text are those its characters complete, and then those its end completes. -/
theorem lexemesFrom_eq (text : List Char) :
    lexemesFrom reading position text =
      reading.emittedBy position text ++ (reading.after position text).pending := by
  have h := lexemesFrom_append reading position text []
  rwa [List.append_nil, lexemesFrom_nil] at h

/-! ### Line feeds -/

/-- A line feed ends whatever the scanner is in the middle of, as the end of the source would. -/
theorem lexemesFrom_lineFeed (rest : List Char) :
    lexemesFrom reading position ('\n' :: rest) =
      reading.pending ++ lexemesFrom .between (position + 1) rest := by
  rw [lexemesFrom_cons]
  cases reading with
  | comment => rfl
  | between => rfl
  | run start reversed =>
    have hlexeme : runLexeme start reversed (some '\n') = runLexeme start reversed none := by
      rfl
    change (runLexeme start reversed (some '\n') :: []) ++ _ = _
    rw [hlexeme]
    rfl

end Fragment

/-- **A line feed separates.** The tokens of two texts with a line feed between them are those of the
first, and then those of the second, scanned from behind the line feed. -/
theorem Token.scan_lineFeed (left right : String) :
    Token.scan (left ++ "\n" ++ right) =
      Token.scan left ++
        Fragment.lexemesFrom .between (Text.byteSize left.toList + 1) right.toList := by
  change Fragment.lexemesFrom .between 0 (left ++ "\n" ++ right).toList =
    Fragment.lexemesFrom .between 0 left.toList ++ _
  have hchars : (left ++ "\n" ++ right).toList = left.toList ++ '\n' :: right.toList := by
    simp
  rw [hchars, Fragment.lexemesFrom_append, Fragment.lexemesFrom_lineFeed,
    Fragment.lexemesFrom_eq .between 0 left.toList, Nat.zero_add, List.append_assoc]

end ParenLambda
