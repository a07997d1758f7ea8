import ParenLambda.Proofs.Scanning.Comments

/-!
# Layout between two fragments

Blanks and comments separate fragments and are otherwise nothing to the scanner. This file says where
layout can be put into a text without changing its tokens: not into a comment, not into a run, and not
between a run and a blank outside ASCII, because such a blank makes `let` and `lambda` atoms and the
layout would come between them (`ParenLambda.Fragment.Cut`).

The proof looks at what the scanner is in the middle of where the layout starts, which the text before
it tells (`ParenLambda.Fragment.Reading.Accounted`). Between two fragments the layout is skipped. In a
run the layout ends the run, as what follows would have done, and is then skipped.
-/

namespace ParenLambda

/-- Whether a character is white space of ASCII. -/
def Text.isNarrowBlank (c : Char) : Bool :=
  isBlank c && decide (c.toNat < 0x80)

theorem Text.isBlank_of_isNarrowBlank {c : Char} (h : isNarrowBlank c) : isBlank c := by
  simp only [isNarrowBlank, Bool.and_eq_true] at h
  exact h.1

theorem Text.not_isWideBlank_of_isNarrowBlank {c : Char} (h : isNarrowBlank c) : ¬isWideBlank c := by
  simp only [isNarrowBlank, Bool.and_eq_true, decide_eq_true_eq] at h
  simp only [isWideBlank, Bool.and_eq_true, decide_eq_true_eq, not_and]
  omega

/-- A comment between two fragments is dropped, with the line feed that ends it. -/
theorem Token.ofText_comment {text : List Char} (h : '\n' ∉ text) (rest : List Char) :
    Token.ofText (';' :: (text ++ '\n' :: rest)) = Token.ofText rest := by
  have hcomment : Fragment.Piece [] (';' :: text) ('\n' :: rest) [] := .comment h fun _ => by
    rintro ⟨⟩
    rfl
  have hpiece : Fragment.lexemesFrom .between 0 (';' :: (text ++ '\n' :: rest)) = _ :=
    Fragment.lexemesFrom_piece hcomment
  rw [Token.ofText, hpiece, List.nil_append, Token.map_token_lexemesFrom,
    Token.ofText_blank (by decide)]

namespace Fragment

/-! ### Layout and the places for it -/

/-- **Layout**: blanks of ASCII and comments, each comment with the line feed that ends it. -/
inductive Gap : List Char → Prop
  /-- No layout. -/
  | nil : Gap []
  /-- A blank of ASCII, and then more layout. -/
  | blank {c : Char} {gap : List Char} : Text.isNarrowBlank c → Gap gap → Gap (c :: gap)
  /-- A comment up to the end of its line, and then more layout. -/
  | comment {text gap : List Char} : '\n' ∉ text → Gap gap → Gap (';' :: (text ++ '\n' :: gap))

/-- What follows parts the text before it: it starts with a parenthesis, a semicolon or a blank of
ASCII, or it is empty. -/
def Parting (rest : List Char) : Prop :=
  ∀ c, rest.head? = some c → isParenthesis c ∨ c = ';' ∨ Text.isNarrowBlank c

/-- **A place for layout**, between a text and what follows it. -/
structure Cut (before rest : List Char) : Prop where
  /-- The text does not end in a comment. -/
  outside : ¬Commented before
  /-- The text ends in a parenthesis or a blank, or what follows parts it; an empty text and nothing to
  follow will do as well. -/
  apart : (∀ c, before.getLast? = some c → isParenthesis c ∨ Text.isBlank c) ∨ Parting rest

variable {before gap rest : List Char}

theorem Parting.broken (h : Parting rest) : Broken rest := by
  intro c hc
  rcases h c hc with hparenthesis | rfl | hblank
  · exact not_isOrdinary_of_isParenthesis hparenthesis
  · decide
  · exact not_isOrdinary_of_isBlank (Text.isBlank_of_isNarrowBlank hblank)

/-- What parts a text from the rest is no blank outside ASCII. -/
theorem Parting.any_head? (h : Parting rest) : rest.head?.any Text.isWideBlank = false := by
  cases rest with
  | nil => rfl
  | cons c rest =>
    change Text.isWideBlank c = false
    refine Bool.eq_false_iff.mpr ?_
    rcases h c rfl with hparenthesis | rfl | hblank
    · simp only [isParenthesis, Bool.or_eq_true, beq_iff_eq] at hparenthesis
      rcases hparenthesis with rfl | rfl <;> decide
    · decide
    · exact Text.not_isWideBlank_of_isNarrowBlank hblank

/-- Layout parts a text from the rest, or the rest does if there is no layout. -/
theorem Gap.parting (h : Gap gap) (hrest : Parting rest) : Parting (gap ++ rest) := by
  cases h with
  | nil => exact hrest
  | blank hc _ =>
    rintro _ ⟨⟩
    exact Or.inr (Or.inr hc)
  | comment _ _ =>
    rintro _ ⟨⟩
    exact Or.inr (Or.inl rfl)

/-! ### Layout between fragments -/

/-- **Layout is skipped** between two fragments. -/
theorem Gap.ofText_append (h : Gap gap) (rest : List Char) :
    Token.ofText (gap ++ rest) = Token.ofText rest := by
  induction h with
  | nil => rfl
  | blank hc _ ih =>
    rw [List.cons_append, Token.ofText_blank (Text.isBlank_of_isNarrowBlank hc), ih]
  | comment htext _ ih =>
    rw [List.cons_append, List.append_assoc, List.cons_append, Token.ofText_comment htext, ih]

/-! ### Where a text leaves the scanner -/

/-- **The text accounts for the state** that it leaves the scanner in: a comment is one that the text
ends in, and a run goes on with the last character of the text. -/
def Reading.Accounted (text : List Char) : Reading → Prop
  | .between => True
  | .comment => Commented text
  | .run _ _ => ∃ c, text.getLast? = some c ∧ isOrdinary c

theorem Reading.Accounted.afterBreak (text : List Char) (c : Char) :
    (afterBreak c).Accounted (text ++ [c]) := by
  rw [Reading.afterBreak]
  by_cases hc : c = ';'
  · subst hc
    rw [if_pos rfl]
    exact ⟨text, [], rfl, List.not_mem_nil⟩
  · rw [if_neg hc]
    trivial

/-- One character more. -/
theorem Reading.Accounted.next {reading : Reading} {text : List Char} (h : reading.Accounted text)
    (position : Nat) (c : Char) : (reading.next position c).Accounted (text ++ [c]) := by
  have hlast : (text ++ [c]).getLast? = some c := List.getLast?_concat
  cases reading with
  | comment =>
    by_cases hc : c = '\n'
    · rw [Reading.next, if_pos hc]
      trivial
    · -- The semicolon that starts the comment still has no line feed behind it.
      rw [Reading.next, if_neg hc]
      exact commented_append.mpr (Or.inr ⟨h, by simpa using fun heq => hc heq.symm⟩)
  | between =>
    by_cases hc : isOrdinary c
    · rw [Reading.next, if_pos hc]
      exact ⟨c, hlast, hc⟩
    · rw [Reading.next, if_neg hc]
      exact afterBreak text c
  | run start reversed =>
    by_cases hc : isOrdinary c
    · rw [Reading.next, if_pos hc]
      exact ⟨c, hlast, hc⟩
    · rw [Reading.next, if_neg hc]
      exact afterBreak text c

/-- A whole text more. -/
theorem Reading.Accounted.after {reading : Reading} {text : List Char} (h : reading.Accounted text)
    (position : Nat) (more : List Char) :
    (reading.after position more).Accounted (text ++ more) := by
  induction more generalizing reading text position with
  | nil => rwa [List.append_nil]
  | cons c more ih =>
    rw [Reading.after, ← List.singleton_append, ← List.append_assoc]
    exact ih (h.next position c) (position + c.utf8Size)

/-! ### Layout anywhere -/

/-- The token of a run depends on what follows only in whether it is a blank outside ASCII. -/
theorem token_runLexeme (start : Nat) (reversed : List Char) {behind : Option Char}
    (h : behind.any Text.isWideBlank = false) :
    (runLexeme start reversed behind).token = (runLexeme start reversed none).token := by
  have hblank : beforeWideBlank ⟨reversed.reverse, start, behind⟩ =
      beforeWideBlank ⟨reversed.reverse, start, none⟩ := h
  change token _ = token _
  rw [token, token, hblank]

/-- **Layout at a place for it does not change the tokens.** -/
theorem Cut.ofText_insert (hcut : Cut before rest) (hgap : Gap gap) :
    Token.ofText (before ++ (gap ++ rest)) = Token.ofText (before ++ rest) := by
  have haccounted : (Reading.between.after 0 before).Accounted before :=
    have hstart : Reading.between.Accounted [] := trivial
    hstart.after 0 before
  rw [Token.ofText, Token.ofText, lexemesFrom_append .between 0 before (gap ++ rest),
    lexemesFrom_append .between 0 before rest, List.map_append, List.map_append]
  congr 1
  cases hreading : Reading.between.after 0 before with
  | comment =>
    rw [hreading] at haccounted
    exact absurd haccounted hcut.outside
  | between =>
    rw [Token.map_token_lexemesFrom, Token.map_token_lexemesFrom, hgap.ofText_append]
  | run start reversed =>
    rw [hreading] at haccounted
    obtain ⟨c, hlast, hordinary⟩ := haccounted
    -- Behind a run the text ends in neither a parenthesis nor a blank, so the rest has to part it.
    have hrest : Parting rest := by
      refine hcut.apart.resolve_left fun hbefore => ?_
      rcases hbefore c hlast with hc | hc
      · exact not_isOrdinary_of_isParenthesis hc hordinary
      · exact not_isOrdinary_of_isBlank hc hordinary
    have hfollowing := hgap.parting hrest
    rw [lexemesFrom_run_broken hfollowing.broken, lexemesFrom_run_broken hrest.broken, List.map_cons,
      List.map_cons, token_runLexeme _ _ hfollowing.any_head?, token_runLexeme _ _ hrest.any_head?,
      Token.map_token_lexemesFrom, Token.map_token_lexemesFrom, hgap.ofText_append]

end Fragment

end ParenLambda
