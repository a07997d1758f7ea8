import ParenLambda.Proofs.Scanning.Pieces

/-!
# Comments, and where a piece may start

A place of a source is in a comment if a semicolon stands before it on its line. The semicolon need
not be the first of the line: one that stands in a comment itself has another one before it
(`ParenLambda.Fragment.commented_iff`).

The scanner is between two pieces at certain places only. It may be at the end of a comment, but then
the line ends there too, and it may be behind an ordinary character, but then no other one follows.
These two facts (`ParenLambda.Fragment.Boundary`) hold at the front of a source and are kept by every
piece; they are what makes the scanner's runs maximal, and outside comments.
-/

namespace ParenLambda

namespace Fragment

/-- **A text ends in a comment**: it has a semicolon with no line feed behind it. -/
def Commented (text : List Char) : Prop :=
  ∃ head tail, text = head ++ ';' :: tail ∧ '\n' ∉ tail

theorem not_commented_nil : ¬Commented [] := by
  rintro ⟨head, tail, h, -⟩
  simp at h

theorem not_commented_of_forall_ne {text : List Char} (h : ∀ c ∈ text, c ≠ ';') :
    ¬Commented text := by
  rintro ⟨head, tail, rfl, -⟩
  exact h ';' (by simp) rfl

theorem commented_append {left right : List Char} :
    Commented (left ++ right) ↔ Commented right ∨ (Commented left ∧ '\n' ∉ right) := by
  constructor
  · rintro ⟨head, tail, h, htail⟩
    rcases List.append_eq_append_iff.mp h with ⟨front, rfl, rfl⟩ | ⟨back, rfl, hback⟩
    · exact Or.inl ⟨front, tail, rfl, htail⟩
    · cases back with
      | nil => exact Or.inl ⟨[], tail, hback.symm, htail⟩
      | cons c back =>
        rw [List.cons_append] at hback
        obtain ⟨rfl, rfl⟩ := List.cons.inj hback
        rw [List.mem_append, not_or] at htail
        exact Or.inr ⟨⟨head, back, rfl, htail.1⟩, htail.2⟩
  · rintro (⟨head, tail, rfl, htail⟩ | ⟨⟨head, tail, rfl, htail⟩, hright⟩)
    · exact ⟨left ++ head, tail, by simp, htail⟩
    · exact ⟨head, tail ++ right, by simp, by simp [htail, hright]⟩

/-- **A comment starts at a semicolon that is in no comment**, and goes on up to a line feed. By
induction on the length: a semicolon in a comment comes behind the one that starts the comment. -/
theorem commented_iff {text : List Char} :
    Commented text ↔ ∃ head tail, text = head ++ ';' :: tail ∧ ¬Commented head ∧ '\n' ∉ tail := by
  constructor
  · intro h
    induction hlength : text.length using Nat.strongRecOn generalizing text with
    | ind length ih =>
      obtain ⟨head, tail, rfl, htail⟩ := h
      by_cases hhead : Commented head
      · have hshorter : head.length < length := by
          rw [← hlength, List.length_append, List.length_cons]
          omega
        obtain ⟨first, between, rfl, hfirst, hbetween⟩ := ih head.length hshorter hhead rfl
        exact ⟨first, between ++ ';' :: tail, by simp, hfirst, by simp [hbetween, htail]⟩
      · exact ⟨head, tail, rfl, hhead, htail⟩
  · rintro ⟨head, tail, rfl, -, htail⟩
    exact ⟨head, tail, rfl, htail⟩

/-- Ordinary characters neither start a comment nor end one. -/
theorem ne_of_isOrdinary {c : Char} (h : isOrdinary c) : c ≠ ';' ∧ c ≠ '\n' := by
  constructor <;>
  · rintro rfl
    exact absurd h (by decide)

theorem ne_of_isParenthesis {c : Char} (h : isParenthesis c) : c ≠ ';' ∧ c ≠ '\n' := by
  constructor <;>
  · rintro rfl
    exact absurd h (by decide)

/-! ### Boundaries -/

/-- No ordinary character stands at the end. -/
def Closed (text : List Char) : Prop :=
  ∀ c, text.getLast? = some c → ¬isOrdinary c

theorem getLast?_append_of_ne {text : List Char} (hne : text ≠ []) (before : List Char) :
    (before ++ text).getLast? = some (text.getLast hne) := by
  rw [List.getLast?_append, List.getLast?_eq_some_getLast hne, Option.some_or]

theorem closed_append {text : List Char} (hne : text ≠ []) (h : ∀ c ∈ text, ¬isOrdinary c)
    (before : List Char) : Closed (before ++ text) := by
  intro c hc
  rw [getLast?_append_of_ne hne] at hc
  cases hc
  exact h _ (List.getLast_mem hne)

theorem Closed.eq_nil {before text : List Char} (h : Closed (before ++ text))
    (htext : ∀ c ∈ text, isOrdinary c) : text = [] := by
  cases text with
  | nil => rfl
  | cons c text =>
    have hne : c :: text ≠ [] := List.cons_ne_nil c text
    exact absurd (htext _ (List.getLast_mem hne)) (h _ (getLast?_append_of_ne hne before))

/-- **A place between two pieces**: where a comment ends, the line does; and no run goes through the
place. -/
structure Boundary (before rest : List Char) : Prop where
  /-- A comment reaches up to the end of its line. -/
  comment : Commented before → ∀ c, rest.head? = some c → c = '\n'
  /-- A run reaches up to the last of its ordinary characters. -/
  run : Closed before ∨ Broken rest

theorem Boundary.start (source : List Char) : Boundary [] source :=
  ⟨fun h => absurd h not_commented_nil, Or.inl (by rintro c ⟨⟩)⟩

/-- At a boundary in front of a character that ends no line there is no comment. -/
theorem Boundary.not_commented {before rest : List Char} {c : Char}
    (h : Boundary before (c :: rest)) (hc : c ≠ '\n') : ¬Commented before :=
  fun hbefore => hc (h.comment hbefore c rfl)

/-- A piece without semicolons and line feeds leaves the scanner outside comments. -/
theorem Boundary.not_commented_append {before piece rest : List Char}
    (h : Boundary before (piece ++ rest)) (hne : piece ≠ [])
    (hpiece : ∀ c ∈ piece, c ≠ ';' ∧ c ≠ '\n') : ¬Commented (before ++ piece) := by
  rw [commented_append]
  rintro (hcommented | ⟨hcommented, -⟩)
  · exact not_commented_of_forall_ne (fun c hc => (hpiece c hc).1) hcommented
  · cases piece with
    | nil => exact hne rfl
    | cons c piece => exact h.not_commented (hpiece c List.mem_cons_self).2 hcommented

/-- **A piece leads from boundary to boundary.** -/
theorem Boundary.after {before piece rest : List Char} {found : List Lexeme}
    (h : Boundary before (piece ++ rest)) (hpiece : Piece before piece rest found) :
    Boundary (before ++ piece) rest := by
  cases hpiece with
  | blanks hne hpiece hrest =>
    refine ⟨fun hcommented => ?_, Or.inl (closed_append hne (fun c hc =>
      not_isOrdinary_of_isBlank (hpiece c hc)) before)⟩
    exfalso
    rw [commented_append] at hcommented
    rcases hcommented with hcommented | ⟨hcommented, hline⟩
    · exact not_commented_of_forall_ne (fun c hc => ne_semicolon_of_isBlank (hpiece c hc)) hcommented
    · -- The comment before the blanks ends with its line, so the first blank is the line feed.
      cases piece with
      | nil => exact hne rfl
      | cons c piece =>
        obtain rfl := h.comment hcommented c rfl
        exact hline List.mem_cons_self
  | comment htail hrest =>
    refine ⟨fun _ => hrest, Or.inr ?_⟩
    intro c hc
    obtain rfl := hrest c hc
    decide
  | @parenthesis c _ hc =>
    refine ⟨fun hcommented => absurd hcommented (h.not_commented_append (List.cons_ne_nil _ _) ?_),
      Or.inl (closed_append (List.cons_ne_nil _ _) ?_ before)⟩
    · intro d hd
      rw [List.mem_singleton] at hd
      subst hd
      exact ne_of_isParenthesis hc
    · intro d hd
      rw [List.mem_singleton] at hd
      subst hd
      exact not_isOrdinary_of_isParenthesis hc
  | word hne hpiece hrest =>
    refine ⟨fun hcommented => absurd hcommented (h.not_commented_append hne ?_), Or.inr hrest⟩
    intro c hc
    exact ne_of_isOrdinary (hpiece c hc)

end Fragment

end ParenLambda
