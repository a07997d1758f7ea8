/-!
# Similar words

How alike two words are, in the measure of Jaro: the part of each word that it shares with the other
one, and the part of what they share that stands in the same order, averaged. Two words share a
letter if it stands in both at about the same place. What a user mistyped is compared in this way
with what could have been meant.
-/

namespace ParenLambda

namespace Text

/-- A fraction; one with the denominator zero counts as none. -/
structure Ratio where
  numerator : Nat
  denominator : Nat

/-- Whether a fraction is at most another one. -/
def Ratio.atMost (a b : Ratio) : Bool :=
  decide (a.numerator * b.denominator ≤ b.numerator * a.denominator)

/-- Mark the first letter equal to `c` that is unmarked and stands at one of the places from `low` to
`high`; the first of the given letters stands at `place`. -/
def markLetter (c : Char) (low high : Nat) : Nat → List (Char × Bool) → Option (List (Char × Bool))
  | _, [] => none
  | place, (d, marked) :: rest =>
    if low ≤ place && place ≤ high && d == c && !marked then some ((d, true) :: rest)
    else (markLetter c low high (place + 1) rest).map ((d, marked) :: ·)

/-- The letters of a word, the first of which stands at `place`, that the other word shares within
`reach` places, and the letters of the other word with the shared ones marked. -/
def sharedLetters (reach : Nat) :
    Nat → List Char → List (Char × Bool) → List Char × List (Char × Bool)
  | _, [], others => ([], others)
  | place, c :: rest, others =>
    match markLetter c (place - reach) (place + reach) 0 others with
    | some others =>
      let (shared, others) := sharedLetters reach (place + 1) rest others
      (c :: shared, others)
    | none => sharedLetters reach (place + 1) rest others

/-- **The similarity of two words.** -/
def similarity (a b : String) : Ratio :=
  let a := a.toList
  let b := b.toList
  let reach := max a.length b.length / 2 - 1
  let (shared, others) := sharedLetters reach 0 a (b.map fun c => (c, false))
  let matching := (others.filter (·.2)).map (·.1)
  let moved := ((shared.zip matching).filter fun (c, d) => c != d).length / 2
  let count := shared.length
  if count == 0 then ⟨0, 1⟩
  else
    ⟨count * count * (a.length + b.length) + (count - moved) * a.length * b.length,
      3 * a.length * b.length * count⟩

/-- Words are similar from this similarity on. -/
def similarFrom : Ratio := ⟨7, 10⟩

/-- Insert a candidate behind those that are at most as similar. -/
def insertCandidate (candidate : Ratio × String) : List (Ratio × String) → List (Ratio × String)
  | [] => [candidate]
  | other :: rest =>
    if other.1.atMost candidate.1 then other :: insertCandidate candidate rest
    else candidate :: other :: rest

/-- **The candidates that are similar to a word**, the most similar one last. -/
def similar (word : String) (candidates : List String) : List String :=
  let scored := candidates.map fun candidate => (similarity word candidate, candidate)
  let close := scored.filter fun (score, _) => similarFrom.atMost score
  (close.foldl (fun sorted candidate => insertCandidate candidate sorted) []).map (·.2)

end Text

end ParenLambda
