import ParenLambda.Proofs.BaseLibrary.Arithmetic

/-!
# The booleans of the base library

A boolean is a function that chooses between two values (`ParenLambda.Value.IsTruth`). The tests and
comparisons of numbers lead to booleans, and choices between two terms
(`ParenLambda.BaseLibrary.attains_branch`) are made by them.
-/

namespace ParenLambda

namespace Value

open ParenLambda.Computation

variable {globals : Scope} {value : Value} {holds : Bool}

/-- **A boolean**: of any two values it chooses the first if it holds, and the second if it does
not. -/
def IsTruth (globals : Scope) (holds : Bool) (value : Value) : Prop :=
  ∀ first second, (ofCall value first).Attains globals fun choice =>
    (ofCall choice second).Attains globals (· = if holds then first else second)

/-- **What a boolean is used for**: it attains what the value it chooses has. -/
theorem IsTruth.choose (h : value.IsTruth globals holds) {property : Value → Prop}
    {first second : Value} (hfirst : holds = true → property first)
    (hsecond : holds = false → property second) :
    (ofCall value first).Attains globals fun choice =>
      (ofCall choice second).Attains globals property := by
  refine (h first second).imp fun choice hchoice => hchoice.imp ?_
  rintro _ rfl
  cases holds with
  | true => exact hfirst rfl
  | false => exact hsecond rfl

/-- **A boolean decodes to its truth value.** -/
theorem IsTruth.toBool (h : value.IsTruth globals holds) :
    ∃ depth, value.toBool globals depth = .ok holds := by
  obtain ⟨choice, hchoice, result, hresult, rfl⟩ := h (.mark true) (.mark false)
  refine toBool_of_yields ⟨choice, hchoice, ?_⟩
  cases holds <;> exact hresult

end Value

namespace BaseLibrary

open ParenLambda.Computation Value

variable {m n : Nat} {holds : Bool}

/-! ### Truth, falsehood and negation -/

theorem isTruth_truth : IsTruth globals true truth.value := by
  intro first second
  rw [Combinator.attains_value]
  simp [truth, Scope.find?]

theorem isTruth_falsehood : IsTruth globals false falsehood.value := by
  intro first second
  rw [Combinator.attains_value]
  simp [falsehood, Scope.find?]

theorem maps_negation :
    Maps globals (IsTruth globals holds) (IsTruth globals !holds) negation.value := by
  have hcalls : ∀ condition, IsTruth globals holds condition →
      (ofCall condition falsehood.value).Attains globals fun choice =>
        (ofCall choice truth.value).Attains globals (IsTruth globals !holds) := by
    intro condition hcondition
    refine hcondition.choose ?_ ?_
    · rintro rfl
      exact isTruth_falsehood
    · rintro rfl
      exact isTruth_truth
  rw [Combinator.maps_value]
  simpa [negation, Scope.find?] using hcalls

/-! ### Choices -/

/-- **The conditional** attains what the value has that the condition chooses. -/
theorem maps_conditional (property : Value → Prop) :
    Maps globals (IsTruth globals holds)
      (Maps globals (fun first => holds = true → property first)
        (Maps globals (fun second => holds = false → property second) property))
      conditional.value := by
  have hcalls : ∀ condition, IsTruth globals holds condition →
      ∀ first, (holds = true → property first) → ∀ second, (holds = false → property second) →
        (ofCall condition first).Attains globals fun choice =>
          (ofCall choice second).Attains globals property :=
    fun _ hcondition _ hfirst _ hsecond => hcondition.choose hfirst hsecond
  rw [Combinator.maps_value]
  simpa [conditional, Maps, Scope.find?] using hcalls

/-- **A choice between two terms** evaluates the condition, and of the terms only the chosen one. -/
theorem attains_branch (holds : Bool) {scope : Scope}
    (hconditional : scope.find? "T_IF" = none) (hnull : scope.find? "T_NULL" = none)
    {condition whenTrue whenFalse : Term}
    (hcondition : (ofTerm scope condition).Attains globals (IsTruth globals holds))
    {property : Value → Prop}
    (htrue : holds = true →
      (ofTerm (.bind "_" null.value scope) whenTrue).Attains globals property)
    (hfalse : holds = false →
      (ofTerm (.bind "_" null.value scope) whenFalse).Attains globals property) :
    (ofTerm scope (branch condition whenTrue whenFalse)).Attains globals property := by
  have hcalls : (ofTerm scope condition).Attains globals fun condition =>
      (ofCall conditional.value condition).Attains globals fun choosing =>
        (ofCall choosing (.closure "_" whenTrue scope)).Attains globals fun choice =>
          (ofCall choice (.closure "_" whenFalse scope)).Attains globals fun chosen =>
            (ofCall chosen null.value).Attains globals property := by
    refine hcondition.imp fun condition hcondition => ?_
    refine (maps_conditional (fun chosen => (ofCall chosen null.value).Attains globals property)
      condition hcondition).imp fun choosing hchoosing => ?_
    refine (hchoosing _ fun hholds => ?_).imp fun choice hchoice => hchoice _ fun hholds => ?_
    · exact attains_closure.mpr (htrue hholds)
    · exact attains_closure.mpr (hfalse hholds)
  simpa [branch, hconditional, hnull, Scope.find?] using hcalls

/-! ### Comparisons -/

theorem maps_isZero :
    Maps globals (IsNumeral globals n) (IsTruth globals (n = 0)) isZero.value := by
  have hcalls : ∀ numeral, IsNumeral globals n numeral →
      (ofCall numeral (.closure "_" (.atom "T_FALSE") (.bind "n" numeral .empty))).Attains globals
        fun several => (ofCall several truth.value).Attains globals (IsTruth globals (n = 0)) := by
    intro numeral hnumeral
    have hsteps : ∀ k, Maps globals (IsTruth globals (k = 0)) (IsTruth globals (k + 1 = 0))
        (.closure "_" (.atom "T_FALSE") (.bind "n" numeral .empty)) := by
      intro k value _
      simpa [Scope.find?] using isTruth_falsehood
    refine (hnumeral.iterate hsteps).imp fun several hseveral => ?_
    exact hseveral truth.value isTruth_truth
  rw [Combinator.maps_value]
  simpa [isZero, Scope.find?] using hcalls

theorem maps_atMost :
    Maps globals (IsNumeral globals m)
      (Maps globals (IsNumeral globals n) (IsTruth globals (m ≤ n))) atMost.value := by
  have hcalls : ∀ first, IsNumeral globals m first → ∀ second, IsNumeral globals n second →
      (ofCall minus.value first).Attains globals fun lessened =>
        (ofCall lessened second).Attains globals fun difference =>
          (ofCall isZero.value difference).Attains globals (IsTruth globals (m ≤ n)) := by
    intro first hfirst second hsecond
    have hzero := maps_isZero (n := m - n)
    simp only [Nat.sub_eq_zero_iff_le] at hzero
    refine (maps_minus (n := n) first hfirst).imp fun lessened hlessened => ?_
    exact (hlessened second hsecond).imp hzero
  rw [Combinator.maps_value]
  simpa [atMost, Maps, Scope.find?] using hcalls

theorem maps_less :
    Maps globals (IsNumeral globals m)
      (Maps globals (IsNumeral globals n) (IsTruth globals (m < n))) less.value := by
  have hcalls : ∀ first, IsNumeral globals m first → ∀ second, IsNumeral globals n second →
      (ofCall atMost.value second).Attains globals fun compared =>
        (ofCall compared first).Attains globals fun above =>
          (ofCall negation.value above).Attains globals (IsTruth globals (m < n)) := by
    intro first hfirst second hsecond
    have hless : decide (m < n) = !decide (n ≤ m) := by
      rw [← decide_not]
      exact decide_eq_decide.mpr Nat.not_le.symm
    rw [hless]
    refine (maps_atMost (n := m) second hsecond).imp fun compared hcompared => ?_
    exact (hcompared first hfirst).imp maps_negation
  rw [Combinator.maps_value]
  simpa [less, Maps, Scope.find?] using hcalls

/-- A source that expresses a boolean is decoded to its truth value. -/
theorem Expresses.answers_truth {source : String} (h : Expresses source (IsTruth globals holds)) :
    Answers source toBool holds :=
  h.answers fun _ hvalue => hvalue.toBool

end BaseLibrary

end ParenLambda
