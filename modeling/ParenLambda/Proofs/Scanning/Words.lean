import ParenLambda.Proofs.Shifting

/-!
# The tokens of a text without their places

Where a text stands in a source does not matter for its tokens, only for their places. Without the
places the scanner has three simple rules between two fragments: a blank is dropped, a parenthesis is
a token, and a run of ordinary characters with no ordinary character behind it is one token.
-/

namespace ParenLambda

namespace Fragment

theorem not_isOrdinary_of_isBlank {c : Char} (h : Text.isBlank c) : ¬isOrdinary c := by
  simp [isOrdinary, h]

theorem not_isOrdinary_of_isParenthesis {c : Char} (h : isParenthesis c) : ¬isOrdinary c := by
  simp [isOrdinary, h]

theorem not_isParenthesis_of_isBlank {c : Char} (h : Text.isBlank c) : ¬isParenthesis c := by
  intro hc
  simp only [isParenthesis, Bool.or_eq_true, beq_iff_eq] at hc
  rcases hc with rfl | rfl <;> exact absurd h (by decide)

theorem ne_semicolon_of_isBlank {c : Char} (h : Text.isBlank c) : c ≠ ';' := by
  rintro rfl
  exact absurd h (by decide)

/-- A blank between two fragments gives no lexeme. -/
theorem lexemesFrom_blank {c : Char} (h : Text.isBlank c) (position : Nat) (rest : List Char) :
    lexemesFrom .between position (c :: rest) =
      lexemesFrom .between (position + c.utf8Size) rest := by
  have hordinary := not_isOrdinary_of_isBlank h
  rw [lexemesFrom_cons, Reading.emitted, Reading.next, if_neg hordinary, if_neg hordinary,
    breakLexemes, if_neg (not_isParenthesis_of_isBlank h), Reading.afterBreak,
    if_neg (ne_semicolon_of_isBlank h), List.nil_append]

end Fragment

namespace Token

/-- **The tokens of a text**, without their places. -/
def ofText (text : List Char) : List Token :=
  (Fragment.lexemesFrom .between 0 text).map Lexeme.token

/-- The tokens of a text do not depend on where the text starts. -/
theorem map_token_lexemesFrom (position : Nat) (text : List Char) :
    (Fragment.lexemesFrom .between position text).map Lexeme.token = ofText text := by
  have hshift := Fragment.lexemesFrom_shift .between 0 position text
  rw [Nat.zero_add] at hshift
  change (Fragment.lexemesFrom (Fragment.Reading.between.shift position) position text).map
    Lexeme.token = _
  rw [hshift, List.map_map, ofText]
  rfl

@[simp] theorem ofText_nil : ofText [] = [] := rfl

/-- A blank between two fragments is dropped. -/
theorem ofText_blank {c : Char} (h : Text.isBlank c) (rest : List Char) :
    ofText (c :: rest) = ofText rest := by
  rw [ofText, Fragment.lexemesFrom_blank h, map_token_lexemesFrom]

theorem ofText_space (rest : List Char) : ofText (' ' :: rest) = ofText rest :=
  ofText_blank (by decide) rest

theorem ofText_opening (rest : List Char) : ofText ('(' :: rest) = .opening :: ofText rest := by
  rw [← map_token_lexemesFrom 1 rest]
  rfl

theorem ofText_closing (rest : List Char) : ofText (')' :: rest) = .closing :: ofText rest := by
  rw [← map_token_lexemesFrom 1 rest]
  rfl

end Token

namespace Fragment

/-- No ordinary character stands in front. -/
def Broken (text : List Char) : Prop :=
  ∀ c, text.head? = some c → ¬isOrdinary c

theorem broken_nil : Broken [] := by
  rintro c ⟨⟩

theorem broken_cons {c : Char} (h : ¬isOrdinary c) (rest : List Char) : Broken (c :: rest) := by
  rintro _ ⟨⟩
  exact h

theorem broken_space (rest : List Char) : Broken (' ' :: rest) :=
  broken_cons (by decide) rest

theorem broken_closing (rest : List Char) : Broken (')' :: rest) :=
  broken_cons (by decide) rest

/-- A run goes on through ordinary characters. -/
theorem lexemesFrom_run_append {word : List Char} (h : ∀ c ∈ word, isOrdinary c) (start : Nat)
    (reversed : List Char) (position : Nat) (rest : List Char) :
    lexemesFrom (.run start reversed) position (word ++ rest) =
      lexemesFrom (.run start (word.reverse ++ reversed)) (position + Text.byteSize word) rest := by
  induction word generalizing reversed position with
  | nil => rfl
  | cons c word ih =>
    have hc : isOrdinary c := h c List.mem_cons_self
    rw [List.cons_append, lexemesFrom_cons, Reading.emitted, Reading.next, if_pos hc, if_pos hc,
      List.nil_append, ih fun d hd => h d (List.mem_cons_of_mem _ hd), Text.byteSize_cons,
      Nat.add_assoc, List.reverse_cons, List.append_assoc]
    rfl

/-- A run that no ordinary character follows ends, and what follows is scanned as from between two
fragments. -/
theorem lexemesFrom_run_broken {rest : List Char} (h : Broken rest) (start : Nat)
    (reversed : List Char) (position : Nat) :
    lexemesFrom (.run start reversed) position rest =
      runLexeme start reversed rest.head? :: lexemesFrom .between position rest := by
  cases rest with
  | nil => rfl
  | cons c rest =>
    have hc : ¬isOrdinary c := h c rfl
    rw [lexemesFrom_cons, lexemesFrom_cons, Reading.emitted, Reading.emitted, Reading.next,
      Reading.next, if_neg hc, if_neg hc, if_neg hc, if_neg hc]
    rfl

/-- **A run of ordinary characters is one lexeme.** -/
theorem lexemesFrom_word {word rest : List Char} (hne : word ≠ [])
    (hword : ∀ c ∈ word, isOrdinary c) (hrest : Broken rest) (position : Nat) :
    lexemesFrom .between position (word ++ rest) =
      lexeme ⟨word, position, rest.head?⟩ ::
        lexemesFrom .between (position + Text.byteSize word) rest := by
  cases word with
  | nil => exact absurd rfl hne
  | cons c word =>
    have hc : isOrdinary c := hword c List.mem_cons_self
    have htail : ∀ d ∈ word, isOrdinary d := fun d hd => hword d (List.mem_cons_of_mem _ hd)
    rw [List.cons_append, lexemesFrom_cons, Reading.emitted, Reading.next, if_pos hc, if_pos hc,
      List.nil_append, lexemesFrom_run_append htail, lexemesFrom_run_broken hrest, runLexeme,
      List.reverse_append, List.reverse_reverse, Text.byteSize_cons, Nat.add_assoc]
    rfl

end Fragment

/-- A run of ordinary characters in front of a text is one token. -/
theorem Token.ofText_word {word rest : List Char} (hne : word ≠ [])
    (hword : ∀ c ∈ word, Fragment.isOrdinary c) (hrest : Fragment.Broken rest) :
    Token.ofText (word ++ rest) =
      Fragment.token ⟨word, 0, rest.head?⟩ :: Token.ofText rest := by
  rw [Token.ofText, Fragment.lexemesFrom_word hne hword hrest, List.map_cons,
    Token.map_token_lexemesFrom]
  rfl

end ParenLambda
