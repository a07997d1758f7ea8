import ParenLambda.Proofs.Identifiers

/-!
# Canonical names are fixed

The canonical name of a symbol is its own canonical name. Sanitizing leaves an identifier as it is, so
all that could go wrong is that a name is one of the symbols with names of their own. Among these only
three are identifiers, and no symbol has one of the three for its name: what sanitizing has changed holds
an underscore, and so do the names of the operators. **A name without an underscore is the name of no
symbol but itself** (`ParenLambda.Name.eq_of_canonical_eq`).
-/

namespace ParenLambda

namespace Name

variable {symbol name : String}

/-- The identifiers that are the symbols of operators. -/
def words : List String := ["If", "True", "False"]

/-! ### Names that are left alone -/

theorem mem_words_of_operators :
    ∀ entry ∈ operators, isIdentifier entry.1 → entry.1 ∈ words := by
  decide +kernel

theorem safe_of_isIdentifierPart {c : Char} (h : Text.isIdentifierPart c) : safe c = c :=
  if_pos h

theorem sanitize_of_isIdentifier (h : isIdentifier name) : sanitize name.toList = name.toList := by
  obtain ⟨⟨first, rest, hname, hlead⟩, hparts⟩ := isIdentifier_iff.mp h
  have hsafe : name.toList.map safe = name.toList := by
    refine (List.map_congr_left fun c hc => ?_).trans (List.map_id' _)
    exact safe_of_isIdentifierPart (hparts c hc)
  rw [sanitize, hsafe, hname]
  exact if_pos hlead

/-- **An identifier is its own canonical name**, but for the words of the operators. -/
theorem canonical_of_isIdentifier (h : isIdentifier name) (hword : name ∉ words) :
    canonical name = name := by
  rw [canonical]
  cases hlookup : operators.lookup name with
  | some found =>
    obtain ⟨before, after, hoperators, -⟩ := List.lookup_eq_some_iff.mp hlookup
    have hmem : (name, found) ∈ operators := by simp [hoperators]
    exact absurd (mem_words_of_operators _ hmem h) hword
  | none => rw [sanitize_of_isIdentifier h, String.ofList_toList]

/-! ### Names without an underscore -/

theorem underscore_mem_operators : ∀ entry ∈ operators, '_' ∈ entry.2.toList := by
  decide

theorem eq_of_safe_ne {c : Char} (h : safe c ≠ '_') : safe c = c := by
  rw [safe] at h ⊢
  split at h
  · exact if_pos ‹_›
  · exact absurd rfl h

/-- What sanitizing has changed holds an underscore. -/
theorem eq_of_sanitize_eq {symbol name : List Char} (h : sanitize symbol = name)
    (hname : '_' ∉ name) : symbol = name := by
  have hmap : sanitize symbol = symbol.map safe := by
    rw [sanitize] at h ⊢
    cases hsafe : symbol.map safe with
    | nil => rfl
    | cons first rest =>
      rw [hsafe] at h
      -- The numeral mark would bring an underscore with it.
      by_cases hlead : canLead first
      · exact if_pos hlead
      · simp only [hlead, Bool.false_eq_true, if_false] at h
        refine absurd ?_ hname
        rw [← h]
        exact List.mem_append_left _ (by decide)
  rw [h] at hmap
  subst hmap
  refine (List.map_id' symbol).symm.trans (List.map_congr_left fun c hc => ?_)
  refine (eq_of_safe_ne fun hc' => hname ?_).symm
  rw [← hc']
  exact List.mem_map_of_mem hc

/-- **A name without an underscore is the name of no symbol but itself.** -/
theorem eq_of_canonical_eq (h : canonical symbol = name) (hname : '_' ∉ name.toList) :
    symbol = name := by
  rw [canonical] at h
  cases hlookup : operators.lookup symbol with
  | some found =>
    obtain ⟨before, after, hoperators, -⟩ := List.lookup_eq_some_iff.mp hlookup
    rw [hlookup] at h
    refine absurd ?_ hname
    rw [← h]
    exact underscore_mem_operators (symbol, found) (by simp [hoperators])
  | none =>
    rw [hlookup] at h
    refine String.toList_injective (eq_of_sanitize_eq ?_ hname)
    rw [← h, String.toList_ofList]

/-- No symbol has one of the words of the operators for its name. -/
theorem canonical_not_mem_words (symbol : String) : canonical symbol ∉ words := by
  have hwords : ∀ word ∈ words, '_' ∉ word.toList ∧ canonical word ≠ word := by
    decide
  intro hmem
  obtain ⟨hunderscore, hne⟩ := hwords _ hmem
  have hsymbol : symbol = canonical symbol := eq_of_canonical_eq rfl hunderscore
  exact hne (congrArg canonical hsymbol).symm

/-- **The canonical name of a symbol is its own canonical name.** -/
theorem canonical_canonical (symbol : String) : canonical (canonical symbol) = canonical symbol := by
  by_cases h : symbol.toList = []
  · rw [String.toList_eq_nil_iff.mp h]
    decide
  · exact canonical_of_isIdentifier (isIdentifier_canonical h) (canonical_not_mem_words symbol)

/-! ### Which names are canonical -/

theorem canonical_eq_empty_iff : canonical symbol = "" ↔ symbol = "" := by
  constructor
  · intro h
    by_contra hne
    have hidentifier : isIdentifier (canonical symbol) :=
      isIdentifier_canonical (mt String.toList_eq_nil_iff.mp hne)
    rw [h] at hidentifier
    exact absurd hidentifier (by decide)
  · rintro rfl
    decide

/-- **The names that are their own canonical names** are the identifiers but for the words of the
operators. -/
theorem canonical_eq_self_iff (hne : symbol ≠ "") :
    canonical symbol = symbol ↔ isIdentifier symbol ∧ symbol ∉ words := by
  constructor
  · intro h
    rw [← h]
    exact ⟨isIdentifier_canonical (mt String.toList_eq_nil_iff.mp hne),
      canonical_not_mem_words symbol⟩
  · rintro ⟨hidentifier, hword⟩
    exact canonical_of_isIdentifier hidentifier hword

end Name

end ParenLambda
