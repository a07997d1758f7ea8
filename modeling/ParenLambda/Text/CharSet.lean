/-!
# Sets of characters

The classes of characters that the language and its reports speak about (blank characters, the
characters of an identifier, wide and invisible characters) are properties of the Unicode standard.
Each is given as a table of closed ranges of code points in increasing order, and membership walks
the table until a range starts beyond the code point it is asked about.
-/

namespace ParenLambda

/-- **A set of characters**, as closed ranges of code points in increasing order. -/
structure CharSet where
  /-- The ranges, first and last code point of each. -/
  ranges : List (Nat × Nat)

namespace CharSet

/-- Whether the code point `n` lies in one of the ranges. A range that starts beyond `n` ends the
search, since the ranges increase. -/
def covers : List (Nat × Nat) → Nat → Bool
  | [], _ => false
  | (low, high) :: rest, n =>
    if n < low then false else if n ≤ high then true else covers rest n

/-- Whether a character belongs to the set. -/
def contains (set : CharSet) (c : Char) : Bool :=
  covers set.ranges c.toNat

@[simp] theorem covers_nil (n : Nat) : covers [] n = false := rfl

theorem covers_cons (low high n : Nat) (rest : List (Nat × Nat)) :
    covers ((low, high) :: rest) n =
      if n < low then false else if n ≤ high then true else covers rest n := rfl

/-- A covered code point lies in one of the ranges. -/
theorem exists_of_covers {ranges : List (Nat × Nat)} {n : Nat} (h : covers ranges n = true) :
    ∃ range ∈ ranges, range.1 ≤ n ∧ n ≤ range.2 := by
  induction ranges with
  | nil => simp at h
  | cons range rest ih =>
    obtain ⟨low, high⟩ := range
    rw [covers_cons] at h
    split at h
    · simp at h
    · split at h
      · exact ⟨(low, high), by simp, by simp only; omega, by assumption⟩
      · obtain ⟨found, hmem, hbounds⟩ := ih h
        exact ⟨found, List.mem_cons_of_mem _ hmem, hbounds⟩

end CharSet

end ParenLambda
