import ParenLambda.Proofs.Bytes
import ParenLambda.Proofs.Scanning.Comments

/-!
# The tokens of a source are its fragments

What the fragments of a source are can be said without the scanner: single parentheses, and runs of
ordinary characters that cannot be made longer on either side, outside comments
(`ParenLambda.Fragment.IsFragment`). The scanner finds exactly these, in order, and what it passes
over is blank or in a comment.

Everything is proved piece by piece. For one piece there is a statement about the lexemes it gives,
which may assume that the piece starts at a boundary; the statement about a source follows by
induction on its pieces, since every piece ends at a boundary again.
-/

namespace ParenLambda

namespace Fragment

/-- **A fragment of a source**, between what stands before it and what stands behind it. -/
inductive IsFragment (before : List Char) : List Char → List Char → Prop
  /-- A parenthesis. -/
  | parenthesis {c : Char} {after : List Char} (hc : isParenthesis c) : IsFragment before [c] after
  /-- A run of ordinary characters, with none before it and none behind it. -/
  | run {text after : List Char} (hne : text ≠ []) (htext : ∀ c ∈ text, isOrdinary c)
      (hbefore : Closed before) (hafter : Broken after) : IsFragment before text after

theorem IsFragment.eq_cons {before text after : List Char} (h : IsFragment before text after) :
    ∃ c tail, text = c :: tail ∧ (isParenthesis c ∨ isOrdinary c) := by
  cases h with
  | parenthesis hc => exact ⟨_, [], rfl, Or.inl hc⟩
  | run hne htext hbefore hafter =>
    cases text with
    | nil => exact absurd rfl hne
    | cons c tail => exact ⟨c, tail, rfl, Or.inr (htext c List.mem_cons_self)⟩

/-- A character of a text is in the piece in front of it or behind that piece. -/
theorem piece_cases {piece rest ahead back : List Char} {c : Char}
    (h : piece ++ rest = ahead ++ c :: back) :
    (∃ more, ahead = piece ++ more ∧ rest = more ++ c :: back) ∨
      ∃ tail, piece = ahead ++ c :: tail ∧ back = tail ++ rest := by
  rcases List.append_eq_append_iff.mp h with ⟨more, rfl, rfl⟩ | ⟨tail, rfl, htail⟩
  · exact Or.inl ⟨more, rfl, rfl⟩
  · cases tail with
    | nil => exact Or.inl ⟨[], (List.append_nil _).symm.trans (List.append_nil _).symm, htail.symm⟩
    | cons d tail =>
      obtain ⟨rfl, rfl⟩ := List.cons.inj htail
      exact Or.inr ⟨tail, rfl, rfl⟩

/-- A run that cannot be made longer is determined by where it starts. -/
theorem run_unique {text right piece rest : List Char} (h : text ++ right = piece ++ rest)
    (htext : ∀ c ∈ text, isOrdinary c) (hright : Broken right)
    (hpiece : ∀ c ∈ piece, isOrdinary c) (hrest : Broken rest) : text = piece ∧ right = rest := by
  rcases List.append_eq_append_iff.mp h with ⟨more, rfl, rfl⟩ | ⟨more, rfl, rfl⟩
  · cases more with
    | nil => exact ⟨(List.append_nil _).symm, rfl⟩
    | cons c more => exact absurd (hpiece c (by simp)) (hright c rfl)
  · cases more with
    | nil => exact ⟨List.append_nil _, rfl⟩
    | cons c more => exact absurd (htext c (by simp)) (hrest c rfl)

/-! ### What one piece gives -/

section OnePiece

variable {before piece rest : List Char} {found : List Lexeme}

/-- A piece gives at most one lexeme, which covers it and is a fragment outside comments. -/
theorem Piece.sound (h : Piece before piece rest found) (hboundary : Boundary before (piece ++ rest))
    {item : Lexeme} (hitem : item ∈ found) :
    ¬Commented before ∧ IsFragment before piece rest ∧
      found = [lexeme ⟨piece, Text.byteSize before, rest.head?⟩] := by
  cases h with
  | blanks hne hpiece hrest => cases hitem
  | comment htail hrest => cases hitem
  | parenthesis hc =>
    exact ⟨hboundary.not_commented (ne_of_isParenthesis hc).2, .parenthesis hc, rfl⟩
  | word hne hpiece hrest =>
    cases piece with
    | nil => exact absurd rfl hne
    | cons c piece =>
      have hc : isOrdinary c := hpiece c List.mem_cons_self
      refine ⟨hboundary.not_commented (ne_of_isOrdinary hc).2, .run hne hpiece ?_ hrest, rfl⟩
      -- The run starts here, so the boundary cannot be one that no ordinary character follows.
      rcases hboundary.run with hclosed | hbroken
      · exact hclosed
      · exact absurd hc (hbroken c rfl)

/-- A fragment outside comments that starts in a piece is the lexeme of the piece. -/
theorem Piece.complete (h : Piece before piece rest found) {ahead text right : List Char}
    (hsplit : piece ++ rest = ahead ++ (text ++ right)) (hcomment : ¬Commented (before ++ ahead))
    (hfragment : IsFragment (before ++ ahead) text right) :
    (∃ more, ahead = piece ++ more ∧ rest = more ++ (text ++ right)) ∨
      lexeme ⟨text, Text.byteSize (before ++ ahead), right.head?⟩ ∈ found := by
  obtain ⟨c, back, rfl, hc⟩ := hfragment.eq_cons
  rcases piece_cases hsplit with ⟨more, hahead, hrest⟩ | ⟨tail, rfl, hback⟩
  · exact Or.inl ⟨more, hahead, hrest⟩
  refine Or.inr ?_
  generalize hwhole : ahead ++ c :: tail = whole at h
  cases h with
  | blanks hne hpiece hrest =>
    subst hwhole
    have hblank : Text.isBlank c := hpiece c (by simp)
    rcases hc with hc | hc
    · exact absurd hc (not_isParenthesis_of_isBlank hblank)
    · exact absurd hc (not_isOrdinary_of_isBlank hblank)
  | @comment line _ hline hrest =>
    cases ahead with
    | nil =>
      obtain ⟨rfl, rfl⟩ := List.cons.inj hwhole
      rcases hc with hc | hc <;> exact absurd hc (by decide)
    | cons d ahead =>
      -- The fragment would stand behind the semicolon, on its line.
      obtain ⟨rfl, rfl⟩ := List.cons.inj hwhole
      refine absurd ⟨before, ahead, rfl, ?_⟩ hcomment
      intro hmem
      exact hline (List.mem_append_left _ hmem)
  | @parenthesis d _ hd =>
    obtain ⟨rfl, hsingle⟩ : ahead = [] ∧ c :: tail = [d] := by
      cases ahead with
      | nil => exact ⟨rfl, hwhole⟩
      | cons e ahead => simp at hwhole
    obtain ⟨rfl, rfl⟩ := List.cons.inj hsingle
    cases hfragment with
    | parenthesis _ =>
      obtain rfl : right = rest := hback
      rw [List.append_nil]
      exact List.mem_singleton_self _
    | run hne htext hbefore hafter =>
      exact absurd (htext c List.mem_cons_self) (not_isOrdinary_of_isParenthesis hd)
  | word hne hpiece hrest =>
    subst hwhole
    have hordinary : isOrdinary c := hpiece c (by simp)
    cases hfragment with
    | parenthesis hparenthesis =>
      exact absurd hordinary (not_isOrdinary_of_isParenthesis hparenthesis)
    | run hne htext hbefore hafter =>
      -- A run that started later in the piece would have an ordinary character before it.
      obtain rfl : ahead = [] :=
        hbefore.eq_nil fun d hd => hpiece d (List.mem_append_left _ hd)
      rw [List.nil_append, List.nil_append] at hsplit
      obtain ⟨htail, rfl⟩ := run_unique hsplit hpiece hrest htext hafter
      rw [List.nil_append, List.append_nil, htail]
      exact List.mem_singleton_self _

/-- A character of a piece is blank or in a comment, or the lexeme of the piece covers it. -/
theorem Piece.covers (h : Piece before piece rest found) {ahead tail : List Char} {c : Char}
    (hwhole : piece = ahead ++ c :: tail) :
    (Text.isBlank c ∨ Commented (before ++ ahead ++ [c])) ∨
      ∃ item ∈ found, item.span.start ≤ Text.byteSize (before ++ ahead) ∧
        Text.byteSize (before ++ ahead ++ [c]) ≤ item.span.stop := by
  have hspan : ∀ behind, (lexeme ⟨piece, Text.byteSize before, behind⟩).span.start ≤
      Text.byteSize (before ++ ahead) ∧ Text.byteSize (before ++ ahead ++ [c]) ≤
      (lexeme ⟨piece, Text.byteSize before, behind⟩).span.stop := by
    intro behind
    simp only [lexeme, span, hwhole, Text.byteSize_append, Text.byteSize_cons, Text.byteSize_nil]
    omega
  cases h with
  | blanks hne hpiece hrest => exact Or.inl (Or.inl (hpiece c (by simp [hwhole])))
  | @comment line _ hline hrest =>
    refine Or.inl (Or.inr ?_)
    cases ahead with
    | nil =>
      obtain ⟨rfl, rfl⟩ := List.cons.inj hwhole
      exact ⟨before, [], by simp, List.not_mem_nil⟩
    | cons d ahead =>
      rw [List.cons_append] at hwhole
      obtain ⟨rfl, rfl⟩ := List.cons.inj hwhole
      refine ⟨before, ahead ++ [c], by simp, fun hmem => hline ?_⟩
      rw [List.append_cons]
      exact List.mem_append_left _ hmem
  | parenthesis hc => exact Or.inr ⟨_, List.mem_singleton_self _, hspan _⟩
  | word hne hpiece hrest => exact Or.inr ⟨_, List.mem_singleton_self _, hspan _⟩

end OnePiece

/-! ### What all pieces give -/

section AllPieces

variable {before rest : List Char} {lexemes : List Lexeme}

/-- **Every lexeme is a fragment outside comments.** -/
theorem Splits.sound (h : Splits before rest lexemes) (hboundary : Boundary before rest)
    {item : Lexeme} (hitem : item ∈ lexemes) :
    ∃ left text right, before ++ rest = left ++ text ++ right ∧ ¬Commented left ∧
      IsFragment left text right ∧ item = lexeme ⟨text, Text.byteSize left, right.head?⟩ := by
  induction h with
  | done => cases hitem
  | @next before piece rest found lexemes hpiece hrest ih =>
    rcases List.mem_append.mp hitem with hitem | hitem
    · obtain ⟨hcomment, hfragment, rfl⟩ := hpiece.sound hboundary hitem
      exact ⟨before, piece, rest, (List.append_assoc _ _ _).symm, hcomment, hfragment,
        List.mem_singleton.mp hitem⟩
    · rw [← List.append_assoc]
      exact ih (hboundary.after hpiece) hitem

/-- **Every fragment outside comments is a lexeme.** -/
theorem Splits.complete (h : Splits before rest lexemes) {ahead text right : List Char}
    (hsplit : rest = ahead ++ (text ++ right)) (hcomment : ¬Commented (before ++ ahead))
    (hfragment : IsFragment (before ++ ahead) text right) :
    lexeme ⟨text, Text.byteSize (before ++ ahead), right.head?⟩ ∈ lexemes := by
  induction h generalizing ahead with
  | done =>
    obtain ⟨c, tail, rfl, -⟩ := hfragment.eq_cons
    simp at hsplit
  | @next before piece rest found lexemes hpiece hrest ih =>
    rcases hpiece.complete hsplit hcomment hfragment with ⟨more, rfl, hmore⟩ | hmem
    · rw [← List.append_assoc] at hcomment hfragment ⊢
      exact List.mem_append_right _ (ih hmore hcomment hfragment)
    · exact List.mem_append_left _ hmem

/-- **The lexemes stand in order**, none of them before the place where splitting starts. -/
theorem Splits.ordered (h : Splits before rest lexemes) (hboundary : Boundary before rest) :
    (∀ item ∈ lexemes, Text.byteSize before ≤ item.span.start) ∧
      lexemes.Pairwise fun left right => left.span.stop ≤ right.span.start := by
  induction h with
  | done => exact ⟨by rintro item ⟨⟩, .nil⟩
  | @next before piece rest found lexemes hpiece hrest ih =>
    obtain ⟨hstart, hpairwise⟩ := ih (hboundary.after hpiece)
    rw [Text.byteSize_append] at hstart
    cases found with
    | nil =>
      refine ⟨fun item hitem => ?_, hpairwise⟩
      exact Nat.le_trans (Nat.le_add_right _ _) (hstart item hitem)
    | cons first others =>
      obtain ⟨-, -, hfound⟩ := hpiece.sound hboundary List.mem_cons_self
      obtain ⟨rfl, rfl⟩ := List.cons.inj hfound
      refine ⟨?_, List.pairwise_cons.mpr ⟨hstart, hpairwise⟩⟩
      rintro item (_ | ⟨_, hitem⟩)
      · exact Nat.le_refl _
      · exact Nat.le_trans (Nat.le_add_right _ _) (hstart item hitem)

/-- **Nothing is lost**: a character that no lexeme covers is blank or in a comment. -/
theorem Splits.covers (h : Splits before rest lexemes) {ahead back : List Char} {c : Char}
    (hsplit : rest = ahead ++ c :: back) :
    (Text.isBlank c ∨ Commented (before ++ ahead ++ [c])) ∨
      ∃ item ∈ lexemes, item.span.start ≤ Text.byteSize (before ++ ahead) ∧
        Text.byteSize (before ++ ahead ++ [c]) ≤ item.span.stop := by
  induction h generalizing ahead with
  | done => simp at hsplit
  | @next before piece rest found lexemes hpiece hrest ih =>
    rcases piece_cases hsplit with ⟨more, rfl, hmore⟩ | ⟨tail, hwhole, -⟩
    · rw [← List.append_assoc]
      rcases ih hmore with hskipped | ⟨item, hitem, hspan⟩
      · exact Or.inl hskipped
      · exact Or.inr ⟨item, List.mem_append_right _ hitem, hspan⟩
    · rcases hpiece.covers hwhole with hskipped | ⟨item, hitem, hspan⟩
      · exact Or.inl hskipped
      · exact Or.inr ⟨item, List.mem_append_left _ hitem, hspan⟩

end AllPieces

end Fragment

/-! ### The token of a fragment -/

namespace Token

/-- **The token that a text denotes**, given the character behind it. Two words introduce a binding
only if no blank outside ASCII follows. -/
inductive Denotes (behind : Option Char) : List Char → Token → Prop
  /-- An opening parenthesis. -/
  | opening : Denotes behind ['('] .opening
  /-- A closing parenthesis. -/
  | closing : Denotes behind [')'] .closing
  /-- The sign for functions. -/
  | sign : Denotes behind ['λ'] (.introducer .abstraction)
  /-- The word for functions. -/
  | abstraction (h : ¬∃ c, behind = some c ∧ Text.isBlank c ∧ 0x80 ≤ c.toNat) :
      Denotes behind ['l', 'a', 'm', 'b', 'd', 'a'] (.introducer .abstraction)
  /-- The word for definitions. -/
  | definition (h : ¬∃ c, behind = some c ∧ Text.isBlank c ∧ 0x80 ≤ c.toNat) :
      Denotes behind ['l', 'e', 't'] (.introducer .definition)
  /-- One of the two words, with a blank outside ASCII behind it. -/
  | word {name : String} (hname : name = "let" ∨ name = "lambda")
      (h : ∃ c, behind = some c ∧ Text.isBlank c ∧ 0x80 ≤ c.toNat) :
      Denotes behind name.toList (.atom name)
  /-- Any other text is an atom, by its canonical name. -/
  | atom {text : List Char} (h : text ∉ ["(", ")", "λ", "lambda", "let"].map String.toList) :
      Denotes behind text (.atom (Name.canonical (String.ofList text)))

end Token

namespace Fragment

theorem beforeWideBlank_iff {fragment : Fragment} :
    fragment.beforeWideBlank ↔
      ∃ c, fragment.next = some c ∧ Text.isBlank c ∧ 0x80 ≤ c.toNat := by
  simp [beforeWideBlank, Option.any_eq_true, Text.isWideBlank]

/-- A fragment has the token that its text denotes. -/
theorem denotes_token (fragment : Fragment) :
    Token.Denotes fragment.next fragment.text fragment.token := by
  unfold token
  split
  · next htext => exact htext ▸ .opening
  · next htext => exact htext ▸ .closing
  · next htext => exact htext ▸ .sign
  · next htext =>
    rw [htext]
    by_cases hwide : fragment.beforeWideBlank
    · rw [if_pos hwide]
      exact .word (Or.inl rfl) (beforeWideBlank_iff.mp hwide)
    · rw [if_neg hwide]
      exact .definition fun h => hwide (beforeWideBlank_iff.mpr h)
  · next htext =>
    rw [htext]
    by_cases hwide : fragment.beforeWideBlank
    · rw [if_pos hwide]
      exact .word (Or.inr rfl) (beforeWideBlank_iff.mp hwide)
    · rw [if_neg hwide]
      exact .abstraction fun h => hwide (beforeWideBlank_iff.mpr h)
  · next hopening hclosing hsign hlet hlambda =>
    refine .atom ?_
    simp only [List.map_cons, List.map_nil, List.mem_cons, List.not_mem_nil, or_false, not_or]
    exact ⟨hopening, hclosing, hsign, hlambda, hlet⟩

/-- A text denotes no other token. -/
theorem eq_token_of_denotes {fragment : Fragment} {found : Token}
    (h : Token.Denotes fragment.next fragment.text found) : found = fragment.token := by
  obtain ⟨text, start, behind⟩ := fragment
  cases h with
  | opening => rfl
  | closing => rfl
  | sign => rfl
  | abstraction h => exact (if_neg fun hwide => h (beforeWideBlank_iff.mp hwide)).symm
  | definition h => exact (if_neg fun hwide => h (beforeWideBlank_iff.mp hwide)).symm
  | word hname h => rcases hname with rfl | rfl <;> exact (if_pos (beforeWideBlank_iff.mpr h)).symm
  | atom h =>
    simp only [List.map_cons, List.map_nil, List.mem_cons, List.not_mem_nil, or_false, not_or] at h
    obtain ⟨hopening, hclosing, hsign, hlambda, hlet⟩ := h
    unfold token
    split
    · exact absurd ‹_› hopening
    · exact absurd ‹_› hclosing
    · exact absurd ‹_› hsign
    · exact absurd ‹_› hlet
    · exact absurd ‹_› hlambda
    · rfl

/-- The lexeme of a fragment is determined by where it stands and what its text denotes. -/
theorem eq_lexeme_iff {item : Lexeme} {before text : List Char} {behind : Option Char} :
    item = lexeme ⟨text, Text.byteSize before, behind⟩ ↔
      item.span = ⟨Text.byteSize before, Text.byteSize (before ++ text)⟩ ∧
        Token.Denotes behind text item.token := by
  rw [Text.byteSize_append]
  constructor
  · rintro rfl
    exact ⟨rfl, denotes_token ⟨text, Text.byteSize before, behind⟩⟩
  · rintro ⟨hspan, hdenotes⟩
    obtain ⟨token, span⟩ := item
    obtain rfl := hspan
    have htoken : token = Fragment.token ⟨text, Text.byteSize before, behind⟩ :=
      eq_token_of_denotes hdenotes
    rw [htoken]
    rfl

end Fragment

namespace Token

open Fragment

/-! ### The tokens of a source -/

/-- The pieces of a source are found by the scanner. -/
theorem splits_scan (source : String) : Splits [] source.toList (scan source) :=
  splits_lexemesFrom [] source.toList

theorem mem_scan_iff {source : String} {item : Lexeme} :
    item ∈ scan source ↔
      ∃ before text after, source.toList = before ++ text ++ after ∧ ¬Commented before ∧
        IsFragment before text after ∧
        item.span = ⟨Text.byteSize before, Text.byteSize (before ++ text)⟩ ∧
        Denotes after.head? text item.token := by
  constructor
  · intro hitem
    obtain ⟨before, text, after, hsplit, hcomment, hfragment, heq⟩ :=
      (splits_scan source).sound (.start _) hitem
    obtain ⟨hspan, hdenotes⟩ := eq_lexeme_iff.mp heq
    exact ⟨before, text, after, hsplit, hcomment, hfragment, hspan, hdenotes⟩
  · rintro ⟨before, text, after, hsplit, hcomment, hfragment, hspan, hdenotes⟩
    rw [eq_lexeme_iff.mpr ⟨hspan, hdenotes⟩]
    rw [List.append_assoc] at hsplit
    exact (splits_scan source).complete hsplit hcomment hfragment

/-- A lexeme covers some bytes of the source, and whole characters. -/
theorem place_of_mem_scan {source : String} {item : Lexeme} (h : item ∈ scan source) :
    item.span.start < item.span.stop ∧ item.span.stop ≤ source.utf8ByteSize ∧
      (⟨item.span.start⟩ : String.Pos.Raw).IsValid source ∧
      (⟨item.span.stop⟩ : String.Pos.Raw).IsValid source := by
  obtain ⟨before, text, after, hsplit, -, hfragment, hspan, -⟩ := mem_scan_iff.mp h
  obtain ⟨c, tail, rfl, -⟩ := hfragment.eq_cons
  have hpositive : 0 < Text.byteSize (c :: tail) := Text.byteSize_pos (List.cons_ne_nil _ _)
  rw [hspan]
  refine ⟨?_, ?_, ?_, ?_⟩
  · rw [Text.byteSize_append]
    exact Nat.lt_add_of_pos_right hpositive
  · rw [← Text.byteSize_toList, hsplit, Text.byteSize_append _ after]
    exact Nat.le_add_right _ _
  · rw [List.append_assoc] at hsplit
    exact Text.isValid_byteSize hsplit
  · exact Text.isValid_byteSize hsplit

/-- A byte of a source that no lexeme covers belongs to a blank or to a comment. -/
theorem skipped_of_not_covered {source : String} {byte : Nat} (hbyte : byte < source.utf8ByteSize)
    (h : ∀ item ∈ scan source, ¬(item.span.start ≤ byte ∧ byte < item.span.stop)) :
    ∃ before c after, source.toList = before ++ c :: after ∧ Text.byteSize before ≤ byte ∧
      byte < Text.byteSize (before ++ [c]) ∧ (Text.isBlank c ∨ Commented (before ++ [c])) := by
  rw [← Text.byteSize_toList] at hbyte
  obtain ⟨before, c, after, hsplit, hstart, hstop⟩ := Text.exists_char_of_lt hbyte
  refine ⟨before, c, after, hsplit, hstart, hstop, ?_⟩
  rcases (splits_scan source).covers hsplit with hskipped | ⟨item, hitem, hfirst, hlast⟩
  · exact hskipped
  · refine absurd ⟨Nat.le_trans hfirst hstart, Nat.lt_of_lt_of_le hstop hlast⟩ (h item hitem)

/-- **Scanning is total and exact.** The rules of the scanner take a source apart to its end, so that
nowhere all of them fail. Comments start at semicolons outside comments and end with the line. The
tokens are those of the fragments of the source outside comments, each at its place and with the
token that its text denotes; they stand in order, one behind the other, and cover whole characters of
the source; and what they do not cover is blank or in a comment. -/
theorem scan_exact (source : String) :
    Splits [] source.toList (scan source) ∧
    (∀ before, Commented before ↔
      ∃ head tail, before = head ++ ';' :: tail ∧ ¬Commented head ∧ '\n' ∉ tail) ∧
    (∀ item, item ∈ scan source ↔
      ∃ before text after, source.toList = before ++ text ++ after ∧ ¬Commented before ∧
        IsFragment before text after ∧
        item.span = ⟨Text.byteSize before, Text.byteSize (before ++ text)⟩ ∧
        Denotes after.head? text item.token) ∧
    ((scan source).Pairwise fun left right => left.span.stop ≤ right.span.start) ∧
    (∀ item ∈ scan source,
      item.span.start < item.span.stop ∧ item.span.stop ≤ source.utf8ByteSize ∧
        (⟨item.span.start⟩ : String.Pos.Raw).IsValid source ∧
        (⟨item.span.stop⟩ : String.Pos.Raw).IsValid source) ∧
    (∀ byte < source.utf8ByteSize,
      (∀ item ∈ scan source, ¬(item.span.start ≤ byte ∧ byte < item.span.stop)) →
      ∃ before c after, source.toList = before ++ c :: after ∧ Text.byteSize before ≤ byte ∧
        byte < Text.byteSize (before ++ [c]) ∧ (Text.isBlank c ∨ Commented (before ++ [c]))) :=
  ⟨splits_scan source, fun _ => commented_iff, fun _ => mem_scan_iff,
    ((splits_scan source).ordered (.start _)).2, fun _ hitem => place_of_mem_scan hitem,
    fun _ hbyte h => skipped_of_not_covered hbyte h⟩

/-- A source in which a blank outside ASCII follows `let`: the place of that atom, and the byte of the
letter in the comment. -/
theorem scan_exact_wideBlank :
    scan "(let\u00a0λ);x\n" =
      [⟨.opening, ⟨0, 1⟩⟩, ⟨.atom "let", ⟨1, 4⟩⟩, ⟨.introducer .abstraction, ⟨6, 8⟩⟩,
        ⟨.closing, ⟨8, 9⟩⟩] ∧
    (1 < 4 ∧ 4 ≤ "(let\u00a0λ);x\n".utf8ByteSize ∧
      (⟨1⟩ : String.Pos.Raw).IsValid "(let\u00a0λ);x\n" ∧
      (⟨4⟩ : String.Pos.Raw).IsValid "(let\u00a0λ);x\n") ∧
    ∃ before c after, "(let\u00a0λ);x\n".toList = before ++ c :: after ∧
      Text.byteSize before ≤ 10 ∧ 10 < Text.byteSize (before ++ [c]) ∧
      (Text.isBlank c ∨ Commented (before ++ [c])) := by
  have hscan : scan "(let\u00a0λ);x\n" =
      [⟨.opening, ⟨0, 1⟩⟩, ⟨.atom "let", ⟨1, 4⟩⟩, ⟨.introducer .abstraction, ⟨6, 8⟩⟩,
        ⟨.closing, ⟨8, 9⟩⟩] := by
    decide
  obtain ⟨-, -, -, -, hplace, hskipped⟩ := scan_exact "(let\u00a0λ);x\n"
  refine ⟨hscan, hplace ⟨.atom "let", ⟨1, 4⟩⟩ (by simp [hscan]), hskipped 10 (by decide) ?_⟩
  rw [hscan]
  decide

end Token

end ParenLambda
