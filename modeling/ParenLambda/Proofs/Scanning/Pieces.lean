import ParenLambda.Proofs.Scanning.Words

/-!
# A source as a sequence of pieces

The scanner goes through a source character by character. Seen from a distance it takes off one
**piece** after another, always as long a one as it can: blanks, a comment up to the end of its line,
a parenthesis, or a run of ordinary characters. Blanks and comments give nothing, the other two give
a lexeme each.

There is a piece in front of every text that is not empty (`ParenLambda.Fragment.exists_piece`), so
the scanner always gets to the end of the source: it splits every source into pieces, and the lexemes
of the source are those of the pieces (`ParenLambda.Fragment.splits_lexemesFrom`). What is true of the
lexemes of a source can then be proved piece by piece.
-/

namespace ParenLambda

namespace Fragment

/-- **A piece** in front of a text, by the rule that takes it off, with the lexemes that it gives. No
piece can be made longer: what follows does not go on with it. -/
inductive Piece (before : List Char) : List Char → List Char → List Lexeme → Prop
  /-- Blanks. -/
  | blanks {piece rest : List Char} (hne : piece ≠ []) (hpiece : ∀ c ∈ piece, Text.isBlank c)
      (hrest : ∀ c, rest.head? = some c → ¬Text.isBlank c) : Piece before piece rest []
  /-- A semicolon and what is behind it up to the end of the line. -/
  | comment {tail rest : List Char} (htail : '\n' ∉ tail)
      (hrest : ∀ c, rest.head? = some c → c = '\n') : Piece before (';' :: tail) rest []
  /-- One of the two parentheses. -/
  | parenthesis {c : Char} {rest : List Char} (hc : isParenthesis c) :
      Piece before [c] rest [lexeme ⟨[c], Text.byteSize before, rest.head?⟩]
  /-- A run of ordinary characters. -/
  | word {piece rest : List Char} (hne : piece ≠ []) (hpiece : ∀ c ∈ piece, isOrdinary c)
      (hrest : Broken rest) :
      Piece before piece rest [lexeme ⟨piece, Text.byteSize before, rest.head?⟩]

/-- **A text split into pieces**, behind the text before it, with the lexemes of the pieces. -/
inductive Splits : List Char → List Char → List Lexeme → Prop
  /-- Nothing is left. -/
  | done {before : List Char} : Splits before [] []
  /-- One piece, and then the rest. -/
  | next {before piece rest : List Char} {found lexemes : List Lexeme}
      (hpiece : Piece before piece rest found) (hrest : Splits (before ++ piece) rest lexemes) :
      Splits before (piece ++ rest) (found ++ lexemes)

/-! ### There is always a next piece -/

/-- The characters in front of a text that have a property, as many as there are. -/
theorem exists_longest (p : Char → Bool) {c : Char} (hc : p c) (rest : List Char) :
    ∃ front back, c :: rest = front ++ back ∧ front ≠ [] ∧ (∀ d ∈ front, p d) ∧
      ∀ d, back.head? = some d → ¬p d := by
  refine ⟨(c :: rest).takeWhile p, (c :: rest).dropWhile p, List.takeWhile_append_dropWhile.symm,
    ?_, List.all_eq_true.mp List.all_takeWhile, ?_⟩
  · rw [List.takeWhile_cons_of_pos hc]
    exact List.cons_ne_nil _ _
  · intro d hd
    have hnot := List.head?_dropWhile_not p (c :: rest)
    rw [hd] at hnot
    simpa using hnot

/-- **Some rule takes a piece off** the front of every text that is not empty. -/
theorem exists_piece (before : List Char) (c : Char) (rest : List Char) :
    ∃ piece back found, c :: rest = piece ++ back ∧ piece ≠ [] ∧ Piece before piece back found := by
  by_cases hblank : Text.isBlank c
  · obtain ⟨piece, back, hsplit, hne, hpiece, hback⟩ := exists_longest Text.isBlank hblank rest
    exact ⟨piece, back, [], hsplit, hne, .blanks hne hpiece hback⟩
  by_cases hparenthesis : isParenthesis c
  · exact ⟨[c], rest, _, rfl, List.cons_ne_nil _ _, .parenthesis hparenthesis⟩
  by_cases hsemicolon : c = ';'
  · subst hsemicolon
    obtain ⟨piece, back, hsplit, hne, hpiece, hback⟩ :=
      exists_longest (fun d => d != '\n') (c := ';') (by decide) rest
    -- The semicolon is itself the first of the characters that are no line feeds.
    obtain ⟨tail, rfl⟩ : ∃ tail, piece = ';' :: tail := by
      cases piece with
      | nil => exact absurd rfl hne
      | cons d tail => exact ⟨tail, by rw [(List.cons.inj hsplit).1]⟩
    refine ⟨';' :: tail, back, [], hsplit, hne, .comment ?_ ?_⟩
    · intro hmem
      exact absurd (hpiece '\n' (List.mem_cons_of_mem _ hmem)) (by decide)
    · intro d hd
      simpa using hback d hd
  · have hordinary : isOrdinary c := by
      simp [isOrdinary, hblank, hparenthesis, hsemicolon]
    obtain ⟨piece, back, hsplit, hne, hpiece, hback⟩ := exists_longest isOrdinary hordinary rest
    exact ⟨piece, back, _, hsplit, hne, .word hne hpiece hback⟩

/-! ### The scanner takes off pieces -/

theorem lexemesFrom_blanks {piece : List Char} (h : ∀ c ∈ piece, Text.isBlank c) (position : Nat)
    (rest : List Char) :
    lexemesFrom .between position (piece ++ rest) =
      lexemesFrom .between (position + Text.byteSize piece) rest := by
  induction piece generalizing position with
  | nil => rfl
  | cons c piece ih =>
    have hpiece := ih fun d hd => h d (List.mem_cons_of_mem _ hd)
    rw [List.cons_append, lexemesFrom_blank (h c List.mem_cons_self), hpiece, Text.byteSize_cons,
      Nat.add_assoc]

/-- Behind a comment the scanner goes on as from between two fragments: the line feed that ends the
comment is a blank. -/
theorem lexemesFrom_comment {tail rest : List Char} (htail : '\n' ∉ tail)
    (hrest : ∀ c, rest.head? = some c → c = '\n') (position : Nat) :
    lexemesFrom .comment position (tail ++ rest) =
      lexemesFrom .between (position + Text.byteSize tail) rest := by
  induction tail generalizing position with
  | nil =>
    cases rest with
    | nil => rfl
    | cons c rest =>
      obtain rfl : c = '\n' := hrest c rfl
      rfl
  | cons c tail ih =>
    have hc : c ≠ '\n' := (List.ne_of_not_mem_cons htail).symm
    rw [List.cons_append, lexemesFrom_cons, Reading.emitted, Reading.next, if_neg hc,
      List.nil_append, ih (List.not_mem_of_not_mem_cons htail), Text.byteSize_cons, Nat.add_assoc]

theorem lexemesFrom_parenthesis {c : Char} (h : isParenthesis c) (position : Nat)
    (rest : List Char) :
    lexemesFrom .between position (c :: rest) =
      lexeme ⟨[c], position, rest.head?⟩ :: lexemesFrom .between (position + c.utf8Size) rest := by
  have hordinary := not_isOrdinary_of_isParenthesis h
  have hsemicolon : c ≠ ';' := by
    rintro rfl
    exact absurd h (by decide)
  rw [lexemesFrom_cons, Reading.emitted, Reading.next, if_neg hordinary, if_neg hordinary,
    breakLexemes, if_pos h, Reading.afterBreak, if_neg hsemicolon, List.singleton_append,
    lexeme_parenthesis h position rest.head?]

/-- **The scanner takes a piece off** and gives its lexemes. -/
theorem lexemesFrom_piece {before piece rest : List Char} {found : List Lexeme}
    (h : Piece before piece rest found) :
    lexemesFrom .between (Text.byteSize before) (piece ++ rest) =
      found ++ lexemesFrom .between (Text.byteSize (before ++ piece)) rest := by
  rw [Text.byteSize_append]
  cases h with
  | blanks hne hpiece hrest => exact lexemesFrom_blanks hpiece _ rest
  | @comment tail _ htail hrest =>
    have hscan := lexemesFrom_comment htail hrest (Text.byteSize before + 1)
    rw [Text.byteSize_cons, ← Nat.add_assoc]
    exact hscan
  | @parenthesis c _ hc => exact lexemesFrom_parenthesis hc _ rest
  | word hne hpiece hrest => exact lexemesFrom_word hne hpiece hrest _

/-- **The scanner splits every text into pieces.** By induction on the length of what is left. -/
theorem splits_lexemesFrom (before rest : List Char) :
    Splits before rest (lexemesFrom .between (Text.byteSize before) rest) := by
  induction hlength : rest.length using Nat.strongRecOn generalizing before rest with
  | ind length ih =>
    cases rest with
    | nil => exact .done
    | cons c rest =>
      obtain ⟨piece, back, found, hsplit, hne, hpiece⟩ := exists_piece before c rest
      have hshorter : back.length < length := by
        have hpositive := List.length_pos_iff.mpr hne
        rw [← hlength, hsplit, List.length_append]
        omega
      rw [hsplit, lexemesFrom_piece hpiece]
      exact .next hpiece (ih back.length hshorter (before ++ piece) back rfl)

end Fragment

end ParenLambda
