import ParenLambda.Name
import ParenLambda.Token.Scan

/-!
# Names that are canonical already

A name that is its own canonical name is made of characters that identifiers may hold. None of these
is blank, a parenthesis or a semicolon, so the name, written into a source, is one run of characters.
-/

namespace ParenLambda

namespace Text

/-- No code point of the table of blank characters is in one of the two identifier tables. -/
theorem blanks_apart :
    (blanks.ranges.all fun range =>
      (List.range' range.1 (range.2 + 1 - range.1)).all fun n =>
        !CharSet.covers identifierStarts.ranges n && !CharSet.covers identifierExtenders.ranges n) =
      true := by
  decide +kernel

theorem not_isIdentifierPart_of_isBlank {c : Char} (h : isBlank c) : ¬isIdentifierPart c := by
  obtain ⟨range, hrange, hlow, hhigh⟩ := CharSet.exists_of_covers h
  have hapart := List.all_eq_true.mp (List.all_eq_true.mp blanks_apart range hrange) c.toNat
    (List.mem_range'_1.mpr ⟨hlow, by omega⟩)
  simp only [Bool.and_eq_true, Bool.not_eq_true'] at hapart
  simp [isIdentifierPart, isIdentifierStart, CharSet.contains, hapart.1, hapart.2]

end Text

/-- **The characters of identifiers are ordinary**: none of them ends a run. -/
theorem Fragment.isOrdinary_of_isIdentifierPart {c : Char} (h : Text.isIdentifierPart c) :
    isOrdinary c := by
  have hblank : ¬Text.isBlank c := fun hc => Text.not_isIdentifierPart_of_isBlank hc h
  have hopening : c ≠ '(' := by
    rintro rfl
    exact absurd h (by decide)
  have hclosing : c ≠ ')' := by
    rintro rfl
    exact absurd h (by decide)
  have hsemicolon : c ≠ ';' := by
    rintro rfl
    exact absurd h (by decide)
  simp [isOrdinary, isParenthesis, hblank, hopening, hclosing, hsemicolon]

namespace Name

/-- No symbol with a name of its own is that name. -/
theorem operators_ne : ∀ entry ∈ operators, entry.1 ≠ entry.2 := by
  decide

/-- A list of characters that sanitizing leaves alone holds only safe characters. -/
theorem safe_of_sanitize_eq {symbol : List Char} (h : sanitize symbol = symbol) :
    ∀ c ∈ symbol, safe c = c := by
  have hmap : symbol.map safe = symbol := by
    cases symbol with
    | nil => rfl
    | cons first rest =>
      rw [sanitize, List.map_cons] at h
      by_cases hlead : canLead (safe first)
      · simpa [hlead] using h
      · -- The numeral mark would make the name longer than the symbol.
        have hlength := congrArg List.length h
        simp [hlead, numeralMark] at hlength
        omega
  intro c hc
  exact List.map_inj_left.mp (hmap.trans (List.map_id' symbol).symm) c hc

/-- **A canonical name is made of the characters of identifiers.** -/
theorem isIdentifierPart_of_canonical_eq {name : String} (h : canonical name = name) :
    ∀ c ∈ name.toList, Text.isIdentifierPart c := by
  rw [canonical] at h
  cases hlookup : operators.lookup name with
  | some found =>
    obtain ⟨before, after, hoperators, -⟩ := List.lookup_eq_some_iff.mp hlookup
    have hmem : (name, found) ∈ operators := by simp [hoperators]
    rw [hlookup] at h
    exact absurd h.symm (operators_ne _ hmem)
  | none =>
    rw [hlookup] at h
    have hsanitize : sanitize name.toList = name.toList := by
      have hlist := congrArg String.toList h
      rwa [String.toList_ofList] at hlist
    intro c hc
    have hsafe := safe_of_sanitize_eq hsanitize c hc
    by_cases hpart : Text.isIdentifierPart c
    · exact hpart
    · rw [safe, if_neg hpart] at hsafe
      rw [← hsafe]
      exact Text.isIdentifierPart_underscore

end Name

end ParenLambda
