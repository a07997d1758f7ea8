import ParenLambda.Proofs.BaseLibrary.Booleans

/-!
# The comparisons of the base library

Only one comparison of the library looks at numbers: `≤` subtracts, and asks whether nothing is left.
The other five are made of it by negation, conjunction, disjunction and an exchange of the two numbers,
so what they say is settled by what `≤` says of the numbers in either order.

The booleans that come out are made of booleans: the conjunction gives back one of its two arguments,
and so does the disjunction. That they still choose as a boolean should is what
`ParenLambda.Value.IsTruth` says of them, and it is all that a conditional needs
(`ParenLambda.BaseLibrary.Test.expresses_source`).
-/

namespace ParenLambda

namespace BaseLibrary

open ParenLambda.Computation Value
open Term (curried_cons curried_nil)

variable {m n : Nat} {holds holds' : Bool} {given given' gained : Value → Prop}

/-! ### Conjunction and disjunction -/

/-- The conjunction of two booleans is the second one if the first holds, and the first one if not. -/
theorem maps_conjunction :
    Maps globals (IsTruth globals holds)
      (Maps globals (IsTruth globals holds') (IsTruth globals (holds && holds')))
      conjunction.value := by
  have hcalls : ∀ first, IsTruth globals holds first → ∀ second, IsTruth globals holds' second →
      (ofCall first second).Attains globals fun choice =>
        (ofCall choice first).Attains globals (IsTruth globals (holds && holds')) := by
    intro first hfirst second hsecond
    refine hfirst.choose ?_ ?_
    · rintro rfl
      rwa [Bool.true_and]
    · rintro rfl
      rwa [Bool.false_and]
  rw [Combinator.maps_value]
  simpa [conjunction, Maps, Scope.find?] using hcalls

/-- The disjunction of two booleans is the first one if it holds, and the second one if not. -/
theorem maps_disjunction :
    Maps globals (IsTruth globals holds)
      (Maps globals (IsTruth globals holds') (IsTruth globals (holds || holds')))
      disjunction.value := by
  have hcalls : ∀ first, IsTruth globals holds first → ∀ second, IsTruth globals holds' second →
      (ofCall first first).Attains globals fun choice =>
        (ofCall choice second).Attains globals (IsTruth globals (holds || holds')) := by
    intro first hfirst second hsecond
    refine hfirst.choose ?_ ?_
    · rintro rfl
      rwa [Bool.true_or]
    · rintro rfl
      rwa [Bool.false_or]
  rw [Combinator.maps_value]
  simpa [disjunction, Maps, Scope.find?] using hcalls

/-! ### Comparisons made of `≤` -/

section Calls

variable {scope : Scope} (name : String) {value : Value} {first second : Term}

/-- A name of the library that the scope leaves alone, applied to one term. -/
theorem attains_call (hlocal : scope.find? name = none) (hvalue : globals.find? name = some value)
    (h : value.Maps globals given gained) (hfirst : (ofTerm scope first).Attains globals given) :
    (ofTerm scope (.spine (.atom name) [first])).Attains globals gained := by
  have hname : (ofTerm scope (.atom name)).Attains globals (Maps globals given gained) := by
    simpa [hlocal, hvalue] using h
  exact hname.application hfirst

/-- A name of the library that the scope leaves alone, applied to two terms. -/
theorem attains_call₂ (hlocal : scope.find? name = none) (hvalue : globals.find? name = some value)
    (h : value.Maps globals given (Maps globals given' gained))
    (hfirst : (ofTerm scope first).Attains globals given)
    (hsecond : (ofTerm scope second).Attains globals given') :
    (ofTerm scope (.spine (.atom name) [first, second])).Attains globals gained :=
  (attains_call name hlocal hvalue h hfirst).application hsecond

end Calls

/-- **A comparison by its body**, in which `m` and `n` are the two numbers, and the names of the library
mean what they mean there. -/
theorem maps_comparison {body : Term}
    (h : ∀ scope : Scope, (∀ name ∉ ["m", "n"], scope.find? name = none) →
      (ofTerm scope (.atom "m")).Attains globals (IsNumeral globals m) →
      (ofTerm scope (.atom "n")).Attains globals (IsNumeral globals n) →
        (ofTerm scope body).Attains globals (IsTruth globals holds)) :
    Maps globals (IsNumeral globals m)
      (Maps globals (IsNumeral globals n) (IsTruth globals holds))
      (Combinator.value ⟨"m", .curried ["n"] body⟩) := by
  rw [Combinator.maps_value]
  simp only [curried_cons, curried_nil, Maps, attains_abstraction, attains_closure]
  intro first hfirst second hsecond
  refine h _ (fun name hname => ?_) ?_ ?_
  · obtain ⟨hm, hn⟩ : "m" ≠ name ∧ "n" ≠ name := by simpa [eq_comm] using hname
    simp [Scope.find?, hm, hn]
  · simpa [Scope.find?] using hfirst
  · simpa [Scope.find?] using hsecond

/-- The term that compares two terms by `≤`. -/
theorem attains_atMost {scope : Scope} (hlocal : scope.find? "T_IS_L_THAN_EQ" = none)
    {first second : Term} (hfirst : (ofTerm scope first).Attains globals (IsNumeral globals m))
    (hsecond : (ofTerm scope second).Attains globals (IsNumeral globals n)) :
    (ofTerm scope (.spine (.atom "T_IS_L_THAN_EQ") [first, second])).Attains globals
      (IsTruth globals (m ≤ n)) :=
  attains_call₂ "T_IS_L_THAN_EQ" hlocal (by simp) maps_atMost hfirst hsecond

theorem maps_equal :
    Maps globals (IsNumeral globals m)
      (Maps globals (IsNumeral globals n) (IsTruth globals (m = n))) equal.value := by
  have hequal : decide (m = n) = (decide (m ≤ n) && decide (n ≤ m)) := by
    rw [← Bool.decide_and]
    exact decide_eq_decide.mpr Nat.le_antisymm_iff
  rw [hequal]
  refine maps_comparison fun scope hscope hm hn => ?_
  have hatMost := hscope "T_IS_L_THAN_EQ" (by decide)
  exact attains_call₂ "T_AND" (hscope _ (by decide)) (by simp) maps_conjunction
    (attains_atMost hatMost hm hn) (attains_atMost hatMost hn hm)

theorem maps_unequal :
    Maps globals (IsNumeral globals m)
      (Maps globals (IsNumeral globals n) (IsTruth globals (m ≠ n))) unequal.value := by
  have hunequal : decide (m ≠ n) = (!decide (m ≤ n) || !decide (n ≤ m)) := by
    rw [← Bool.not_and, ← Bool.decide_and, ← decide_not]
    exact decide_eq_decide.mpr (not_congr Nat.le_antisymm_iff)
  rw [hunequal]
  refine maps_comparison fun scope hscope hm hn => ?_
  have hatMost := hscope "T_IS_L_THAN_EQ" (by decide)
  have hnot := hscope "T_NOT" (by decide)
  exact attains_call₂ "T_OR" (hscope _ (by decide)) (by simp) maps_disjunction
    (attains_call "T_NOT" hnot (by simp) maps_negation (attains_atMost hatMost hm hn))
    (attains_call "T_NOT" hnot (by simp) maps_negation (attains_atMost hatMost hn hm))

theorem maps_greater :
    Maps globals (IsNumeral globals m)
      (Maps globals (IsNumeral globals n) (IsTruth globals (m > n))) greater.value := by
  have hgreater : decide (m > n) = !decide (m ≤ n) := by
    rw [← decide_not]
    exact decide_eq_decide.mpr Nat.not_le.symm
  rw [hgreater]
  refine maps_comparison fun scope hscope hm hn => ?_
  exact attains_call "T_NOT" (hscope _ (by decide)) (by simp) maps_negation
    (attains_atMost (hscope _ (by decide)) hm hn)

theorem maps_atLeast :
    Maps globals (IsNumeral globals m)
      (Maps globals (IsNumeral globals n) (IsTruth globals (m ≥ n))) atLeast.value :=
  maps_comparison fun _ hscope hm hn => attains_atMost (hscope _ (by decide)) hn hm

/-! ### Sources with tests -/

/-- **A test** of one number, or of two. -/
inductive Test where
  | isZero (n : Nat)
  | atMost (m n : Nat)
  | less (m n : Nat)
  | equal (m n : Nat)
  | unequal (m n : Nat)
  | greater (m n : Nat)
  | atLeast (m n : Nat)

namespace Test

/-- Whether the numbers pass the test. -/
def passed : Test → Bool
  | isZero n => n = 0
  | atMost m n => m ≤ n
  | less m n => m < n
  | equal m n => m = n
  | unequal m n => m ≠ n
  | greater m n => m > n
  | atLeast m n => m ≥ n

/-- The source of the test. -/
def source : Test → String
  | isZero n => s!"(Is-Zero {numeral n})"
  | atMost m n => s!"((≤ {numeral m}) {numeral n})"
  | less m n => s!"((< {numeral m}) {numeral n})"
  | equal m n => s!"((= {numeral m}) {numeral n})"
  | unequal m n => s!"((≠ {numeral m}) {numeral n})"
  | greater m n => s!"((> {numeral m}) {numeral n})"
  | atLeast m n => s!"((≥ {numeral m}) {numeral n})"

/-- The source of a test expresses whether the numbers pass it. -/
theorem expresses_source (test : Test) : Expresses test.source (IsTruth globals test.passed) := by
  cases test with
  | isZero n =>
    exact expresses_call "Is-Zero" "Is_Zero" (by decide) (by simp) maps_isZero (expresses_numeral n)
  | atMost m n =>
    exact expresses_call₂ "≤" "T_IS_L_THAN_EQ" (by decide) (by simp) maps_atMost
      (expresses_numeral m) (expresses_numeral n)
  | less m n =>
    exact expresses_call₂ "<" "T_IS_L_THAN" (by decide) (by simp) maps_less
      (expresses_numeral m) (expresses_numeral n)
  | equal m n =>
    exact expresses_call₂ "=" "T_EQUAL" (by decide) (by simp) maps_equal
      (expresses_numeral m) (expresses_numeral n)
  | unequal m n =>
    exact expresses_call₂ "≠" "T_NOT_EQUAL" (by decide) (by simp) maps_unequal
      (expresses_numeral m) (expresses_numeral n)
  | greater m n =>
    exact expresses_call₂ ">" "T_IS_G_THAN" (by decide) (by simp) maps_greater
      (expresses_numeral m) (expresses_numeral n)
  | atLeast m n =>
    exact expresses_call₂ "≥" "T_IS_G_THAN_EQ" (by decide) (by simp) maps_atLeast
      (expresses_numeral m) (expresses_numeral n)

end Test

/-- A conditional expresses what the chosen one of its two expressions does. -/
theorem Expresses.conditional {condition first second : String} {property : Value → Prop}
    (hcondition : Expresses condition (IsTruth globals holds))
    (hfirst : Expresses first fun value => holds = true → property value)
    (hsecond : Expresses second fun value => holds = false → property value) :
    Expresses s!"(((If {condition}) {first}) {second})" property := by
  have hchoice := expresses_call₂ "If" "T_IF" (by decide) (by simp) (maps_conditional property)
    hcondition hfirst
  exact (hchoice.application hsecond).congr (by simp [toString])

/-- The source of a number expresses another one where the two are the same. -/
theorem expresses_numeral_of {condition : Prop} (h : condition → n = m) :
    Expresses (numeral n) fun value => condition → IsNumeral globals m value := by
  obtain ⟨term, hregular, hread, hattains⟩ := expresses_numeral n
  refine ⟨term, hregular, hread, hattains.imp fun value hvalue hcondition => ?_⟩
  rwa [← h hcondition]

/-- **The comparisons of the base library are right on all numbers.** Behind the library, the source of
a test is decoded to whether the numbers pass it, and a conditional on the test between the sources of
two numbers to the first number if they do, and to the second one if they do not. -/
theorem answers_tests (test : Test) :
    Answers test.source toBool test.passed ∧
    ∀ m n, Answers s!"(((If {test.source}) {numeral m}) {numeral n})" toNat
      (if test.passed then m else n) := by
  have htest := test.expresses_source
  refine ⟨htest.answers_truth, fun m n => Expresses.answers_number ?_⟩
  refine htest.conditional (expresses_numeral_of fun hholds => ?_)
    (expresses_numeral_of fun hholds => ?_)
  · rw [if_pos hholds]
  · rw [hholds, if_neg Bool.false_ne_true]

end BaseLibrary

end ParenLambda
