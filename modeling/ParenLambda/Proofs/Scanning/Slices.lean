import ParenLambda.Proofs.Scanning.Exact

/-!
# The part of a source between two parentheses

Scanning is local. A part of a source that reaches from an opening to a closing parenthesis, both of
them tokens of the source, is a source of its own with the tokens that stand between the two places,
moved to the front.

The front end of the cut is easy, since the scanner is between two pieces there and does not look back.
At the back end it is the closing parenthesis that matters: a piece may look at the character behind it,
and cutting behind a parenthesis takes that character from the parenthesis only, which does not look.
-/

namespace ParenLambda

namespace Fragment

variable {before piece rest : List Char} {found lexemes : List Lexeme}

/-- A piece looks at no more than the next character behind it. -/
theorem Piece.congr {other : List Char} (h : Piece before piece rest found)
    (hhead : rest.head? = other.head?) : Piece before piece other found := by
  cases h with
  | blanks hne hpiece hrest => exact .blanks hne hpiece (hhead ▸ hrest)
  | comment htail hrest => exact .comment htail (hhead ▸ hrest)
  | parenthesis hc =>
    rw [hhead]
    exact .parenthesis hc
  | word hne hpiece hrest =>
    have hother : Broken other := by
      intro c hc
      exact hrest c (hhead.trans hc)
    rw [hhead]
    exact .word hne hpiece hother

/-- A piece gives no lexeme, or one. -/
theorem Piece.found_cases (h : Piece before piece rest found) :
    found = [] ∨ ∃ item, found = [item] := by
  cases h with
  | blanks hne hpiece hrest => exact Or.inl rfl
  | comment htail hrest => exact Or.inl rfl
  | parenthesis hc => exact Or.inr ⟨_, rfl⟩
  | word hne hpiece hrest => exact Or.inr ⟨_, rfl⟩

theorem Piece.ne_nil (h : Piece before piece rest found) : piece ≠ [] := by
  cases h with
  | blanks hne hpiece hrest => exact hne
  | comment htail hrest => exact List.cons_ne_nil _ _
  | parenthesis hc => exact List.cons_ne_nil _ _
  | word hne hpiece hrest => exact hne

/-- A split of a text gives the lexemes that the scanner gives. -/
theorem Splits.lexemesFrom_eq (h : Splits before rest lexemes) :
    lexemesFrom .between (Text.byteSize before) rest = lexemes := by
  induction h with
  | done => rfl
  | next hpiece hrest ih => rw [lexemesFrom_piece hpiece, ih]

/-- The lexeme of a piece covers the piece. -/
theorem Piece.eq_lexeme {item : Lexeme} (h : Piece before piece rest [item]) :
    item = lexeme ⟨piece, Text.byteSize before, rest.head?⟩ := by
  generalize hfound : [item] = found at h
  cases h with
  | blanks hne hpiece hrest => cases hfound
  | comment htail hrest => cases hfound
  | parenthesis hc => exact List.singleton_inj.mp hfound
  | word hne hpiece hrest => exact List.singleton_inj.mp hfound

/-- The piece of a lexeme is a text that denotes its token, and it starts and stops where the lexeme
does. -/
theorem Piece.denotes {item : Lexeme} (h : Piece before piece rest [item]) :
    Token.Denotes rest.head? piece item.token ∧
      item.span = ⟨Text.byteSize before, Text.byteSize (before ++ piece)⟩ := by
  rw [h.eq_lexeme, Text.byteSize_append]
  exact ⟨denotes_token ⟨piece, Text.byteSize before, rest.head?⟩, rfl⟩

/-- A parenthesis does not look at what is behind it. -/
theorem Piece.last_of_closing {item : Lexeme} (h : Piece before [')'] rest [item]) :
    Piece before [')'] [] [item] := by
  rw [h.eq_lexeme, lexeme_parenthesis rfl]
  exact .parenthesis rfl

/-! ### Cutting -/

/-- **A split can be taken up at any of its lexemes**: the piece of the lexeme comes first, and then the
pieces of the lexemes behind it. These can be changed without changing the pieces before, as long as
that one piece stays a piece: no piece looks beyond the next one. -/
theorem Splits.exists_piece {left right : List Lexeme} {item : Lexeme}
    (h : Splits before rest (left ++ item :: right)) :
    ∃ ahead piece back, rest = ahead ++ (piece ++ back) ∧
      Piece (before ++ ahead) piece back [item] ∧ Splits (before ++ ahead ++ piece) back right ∧
      ∀ other others, Piece (before ++ ahead) piece other [item] →
        Splits (before ++ ahead ++ piece) other others →
          Splits before (ahead ++ (piece ++ other)) (left ++ item :: others) := by
  generalize hall : left ++ item :: right = all at h
  induction h generalizing left with
  | done => simp at hall
  | @next before piece rest found lexemes hpiece hrest ih =>
    -- The lexeme comes with a later piece, or with this one.
    have hlater : ∀ passed, passed ++ item :: right = lexemes →
        ∃ ahead piece' back, piece ++ rest = ahead ++ (piece' ++ back) ∧
          Piece (before ++ ahead) piece' back [item] ∧
          Splits (before ++ ahead ++ piece') back right ∧
          ∀ other others, Piece (before ++ ahead) piece' other [item] →
            Splits (before ++ ahead ++ piece') other others →
              Splits before (ahead ++ (piece' ++ other)) (found ++ (passed ++ item :: others)) := by
      intro passed hpassed
      obtain ⟨ahead, piece', back, rfl, hpiece', hback, hother⟩ := ih hpassed
      refine ⟨piece ++ ahead, piece', back, by simp, ?_⟩
      rw [← List.append_assoc]
      refine ⟨hpiece', hback, fun other others hnew hothers => ?_⟩
      have hhead : (ahead ++ (piece' ++ back)).head? = (ahead ++ (piece' ++ other)).head? := by
        obtain ⟨c, tail, rfl⟩ := List.exists_cons_of_ne_nil hpiece'.ne_nil
        cases ahead <;> rfl
      rw [List.append_assoc]
      exact .next (hpiece.congr hhead) (hother other others hnew hothers)
    rcases hpiece.found_cases with rfl | ⟨first, rfl⟩
    · exact hlater left hall
    · cases left with
      | nil =>
        obtain ⟨rfl, rfl⟩ := List.cons.inj hall
        refine ⟨[], piece, rest, rfl, ?_⟩
        rw [List.append_nil]
        refine ⟨hpiece, hrest, fun other others hnew hothers => ?_⟩
        have hnext : Splits before (piece ++ other) ([item] ++ others) := .next hnew hothers
        exact hnext
      | cons passed left =>
        obtain ⟨rfl, hpassed⟩ := List.cons.inj hall
        exact hlater left hpassed

end Fragment

open Fragment in
/-- **The tokens between two parentheses are the tokens of the text between them.** If the tokens of a
source go from an opening parenthesis to a closing one, the text from the one to the other has the same
tokens, moved to the front. -/
theorem Token.scan_slice {source : String} {left inside right : List Lexeme}
    {opening closing : Span}
    (h : Token.scan source = left ++ ⟨.opening, opening⟩ :: (inside ++ ⟨.closing, closing⟩ :: right)) :
    ∃ before text after, source = before ++ ("(" ++ text ++ ")") ++ after ∧
      opening.start = before.utf8ByteSize ∧
      closing.stop = (before ++ ("(" ++ text ++ ")")).utf8ByteSize ∧
      (Token.scan ("(" ++ text ++ ")")).map (Lexeme.shift opening.start) =
        ⟨.opening, opening⟩ :: (inside ++ [⟨.closing, closing⟩]) := by
  have hsplits := splits_scan source
  rw [h] at hsplits
  obtain ⟨before, piece, back, hsource, hopening, hback, -⟩ := hsplits.exists_piece
  rw [List.nil_append] at hopening hback
  obtain ⟨hdenotes, hstart⟩ := hopening.denotes
  cases hdenotes
  obtain ⟨text, piece, after, rfl, hclosing, -, hcut⟩ := hback.exists_piece
  obtain ⟨hdenotes, hstop⟩ := hclosing.denotes
  cases hdenotes
  -- Behind the closing parenthesis all is cut off, and the opening one comes back in front.
  have hslice : Splits before ('(' :: (text ++ [')']))
      (⟨.opening, opening⟩ :: (inside ++ [⟨.closing, closing⟩])) := by
    refine .next (hopening.congr ?_) (hcut [] [] hclosing.last_of_closing .done)
    cases text <;> rfl
  have hstart : opening.start = Text.byteSize before := congrArg Span.start hstart
  have hstop : closing.stop = Text.byteSize (before ++ ['('] ++ text ++ [')']) :=
    congrArg Span.stop hstop
  refine ⟨String.ofList before, String.ofList text, String.ofList after, ?_, ?_, ?_, ?_⟩
  · apply String.toList_injective
    simp [hsource]
  · rw [hstart, Text.byteSize_eq_utf8ByteSize]
  · rw [hstop, Text.byteSize_eq_utf8ByteSize]
    congr 1
    apply String.toList_injective
    simp
  · have hshift := lexemesFrom_shift .between 0 opening.start ('(' :: (text ++ [')']))
    have hchars : ("(" ++ String.ofList text ++ ")").toList = '(' :: (text ++ [')']) := by
      simp
    change (lexemesFrom .between 0 ("(" ++ String.ofList text ++ ")").toList).map _ = _
    rw [hchars, ← hshift, Nat.zero_add, hstart]
    exact hslice.lexemesFrom_eq

end ParenLambda
