import ParenLambda.Evaluation

/-!
# Evaluation without a bound

Evaluation takes a bound on its depth because it need not end. What it ends in does not depend on the
bound, and statements about programs are easier without one. This file says by rules what a
computation ends in, one rule for each way a computation can end well.

Evaluation has three functions that call each other: on a term, on a function and its argument, and
on a function and the terms it is applied to one after the other. They are three kinds of one
`ParenLambda.Computation`, so that the rules are one inductive relation,
`ParenLambda.Computation.Ends`, and a proof about all three is one induction.

The two readings agree: what is reached within some depth is derived by the rules
(`ParenLambda.Computation.ends_of_within`), and what is derived is reached within every depth from
some depth on (`ParenLambda.Computation.Ends.within`).
-/

namespace ParenLambda

/-- A sequence of two steps that ends well is made of two steps that end well. -/
theorem ok_of_bind {ε α β : Type} {first : Except ε α} {second : α → Except ε β} {b : β}
    (h : first >>= second = .ok b) : ∃ a, first = .ok a ∧ second a = .ok b := by
  cases first with
  | error fault => cases h
  | ok a => exact ⟨a, rfl, h⟩

/-- An outcome with a value that is asked for ended well. -/
theorem ok_of_toOption {ε α : Type} {outcome : Except ε α} {a : α} (h : outcome.toOption = some a) :
    outcome = .ok a := by
  cases outcome with
  | error fault => cases h
  | ok found => exact congrArg Except.ok (Option.some.inj h)

namespace Scope

variable {bound name : String} {value found : Value} {outer : Scope}

/-- A name means the value it was bound to last, or else what it meant before. -/
theorem find?_bind_eq_some :
    (bind bound value outer).find? name = some found ↔
      bound = name ∧ value = found ∨ bound ≠ name ∧ outer.find? name = some found := by
  by_cases hname : bound = name
  · simp [find?, hname]
  · simp [find?, hname]

theorem find?_bind_eq_none :
    (bind bound value outer).find? name = none ↔ bound ≠ name ∧ outer.find? name = none := by
  by_cases hname : bound = name
  · simp [find?, hname]
  · simp [find?, hname]

end Scope

/-- **A computation**, of one of the three kinds that evaluation is made of. -/
inductive Computation where
  /-- The value of a term in a scope. -/
  | ofTerm (scope : Scope) (term : Term)
  /-- The value of a function at an argument. -/
  | ofCall (function argument : Value)
  /-- The value of a function at the values of several terms, one after the other. -/
  | ofCalls (scope : Scope) (function : Value) (terms : List Term)

namespace Computation

/-- What becomes of a computation within a depth. -/
def within (globals : Scope) (depth : Nat) : Computation → Except Halt Value
  | ofTerm scope term => Term.eval globals depth scope term
  | ofCall function argument => Value.apply globals depth function argument
  | ofCalls scope function terms => Value.applyAll globals depth scope function terms

/-- **What a computation ends in**, where names not in scope mean what the globals say. -/
inductive Ends (globals : Scope) : Computation → Value → Prop
  /-- A name in scope means its value. -/
  | bound {scope : Scope} {name : String} {value : Value} :
    scope.find? name = some value → Ends globals (.ofTerm scope (.atom name)) value
  /-- A name that is not in scope means what the globals say. -/
  | global {scope : Scope} {name : String} {value : Value} :
    scope.find? name = none → globals.find? name = some value →
      Ends globals (.ofTerm scope (.atom name)) value
  /-- An abstraction closes over its scope. -/
  | abstraction {scope : Scope} {parameter : String} {body : Term} :
    Ends globals (.ofTerm scope (.abstraction parameter body)) (.closure parameter body scope)
  /-- The operator comes before the operand, and both before the call. -/
  | application {scope : Scope} {operator operand : Term} {function argument value : Value} :
    Ends globals (.ofTerm scope operator) function →
      Ends globals (.ofTerm scope operand) argument →
        Ends globals (.ofCall function argument) value →
          Ends globals (.ofTerm scope (.application operator operand)) value
  /-- The first member of a sequence is applied to the others. -/
  | sequence {scope : Scope} {first : Term} {rest : List Term} {function value : Value} :
    Ends globals (.ofTerm scope first) function →
      Ends globals (.ofCalls scope function rest) value →
        Ends globals (.ofTerm scope (.sequence (first :: rest))) value
  /-- The body of a function is evaluated where its parameter means the argument. -/
  | closure {parameter : String} {body : Term} {scope : Scope} {argument value : Value} :
    Ends globals (.ofTerm (.bind parameter argument scope) body) value →
      Ends globals (.ofCall (.closure parameter body scope) argument) value
  /-- The counting function counts one up. -/
  | counter {n : Nat} : Ends globals (.ofCall .counter (.count n)) (.count (n + 1))
  /-- A function applied to no more terms stays as it is. -/
  | done {scope : Scope} {function : Value} : Ends globals (.ofCalls scope function []) function
  /-- A function is applied to the first term before the rest are evaluated. -/
  | next {scope : Scope} {term : Term} {rest : List Term} {function argument result value : Value} :
    Ends globals (.ofTerm scope term) argument →
      Ends globals (.ofCall function argument) result →
        Ends globals (.ofCalls scope result rest) value →
          Ends globals (.ofCalls scope function (term :: rest)) value

variable {globals : Scope} {computation : Computation} {value : Value}

/-! ### From a depth to a derivation -/

/-- **What is reached within a depth is derived by the rules.** -/
theorem ends_of_within {depth : Nat} (h : computation.within globals depth = .ok value) :
    computation.Ends globals value := by
  induction depth generalizing computation value with
  | zero =>
    cases computation with
    | ofTerm scope term => simp [within, Term.eval] at h
    | ofCall function argument => simp [within, Value.apply] at h
    | ofCalls scope function terms => simp [within, Value.applyAll] at h
  | succ depth ih =>
    cases computation with
    | ofTerm scope term =>
      cases term with
      | atom name =>
        simp only [within, Term.eval] at h
        cases hlocal : scope.find? name with
        | some found =>
          obtain rfl : found = value := by simpa [hlocal] using h
          exact .bound hlocal
        | none =>
          cases hglobal : globals.find? name with
          | some found =>
            obtain rfl : found = value := by simpa [hlocal, hglobal] using h
            exact .global hlocal hglobal
          | none => simp [hlocal, hglobal] at h
      | definition name term => simp [within, Term.eval] at h
      | abstraction parameter body =>
        obtain rfl : Value.closure parameter body scope = value := by
          simpa [within, Term.eval] using h
        exact .abstraction
      | application operator operand =>
        rw [within, Term.eval] at h
        obtain ⟨function, hfunction, h⟩ := ok_of_bind h
        obtain ⟨argument, hargument, hcall⟩ := ok_of_bind h
        exact .application (ih hfunction) (ih hargument) (ih hcall)
      | sequence members =>
        cases members with
        | nil => simp [within, Term.eval] at h
        | cons first rest =>
          rw [within, Term.eval] at h
          obtain ⟨function, hfunction, h⟩ := ok_of_bind h
          have hcalls : (ofCalls scope function rest).within globals depth = .ok value := h
          exact .sequence (ih hfunction) (ih hcalls)
    | ofCall function argument =>
      cases function with
      | closure parameter body scope =>
        rw [within, Value.apply] at h
        exact .closure (ih h)
      | counter =>
        cases argument with
        | count n =>
          obtain rfl : Value.count (n + 1) = value := by simpa [within, Value.apply] using h
          exact .counter
        | _ => simp [within, Value.apply] at h
      | _ => simp [within, Value.apply] at h
    | ofCalls scope function terms =>
      cases terms with
      | nil =>
        obtain rfl : function = value := by simpa [within, Value.applyAll] using h
        exact .done
      | cons term rest =>
        rw [within, Value.applyAll] at h
        obtain ⟨argument, hargument, h⟩ := ok_of_bind h
        obtain ⟨result, hresult, hcalls⟩ := ok_of_bind h
        exact .next (ih hargument) (ih hresult) (ih hcalls)

/-! ### From a derivation to a depth -/

/-- A computation that ends within every depth above a positive one ends within that one too. -/
theorem within_of_succ {least : Nat}
    (h : ∀ depth, least ≤ depth → computation.within globals (depth + 1) = .ok value) :
    ∀ depth, least + 1 ≤ depth → computation.within globals depth = .ok value := by
  intro depth hdepth
  obtain ⟨below, rfl⟩ : ∃ below, depth = below + 1 := ⟨depth - 1, by omega⟩
  exact h below (by omega)

/-- **What is derived by the rules is reached within every depth from some depth on.** -/
theorem Ends.within (h : computation.Ends globals value) :
    ∃ least, ∀ depth, least ≤ depth → computation.within globals depth = .ok value := by
  -- Every rule takes one more than the greatest of the depths its premises take.
  induction h with
  | bound hlocal =>
    refine ⟨0 + 1, within_of_succ fun depth _ => ?_⟩
    simp [Computation.within, Term.eval, hlocal]
  | global hlocal hglobal =>
    refine ⟨0 + 1, within_of_succ fun depth _ => ?_⟩
    simp [Computation.within, Term.eval, hlocal, hglobal]
  | abstraction =>
    refine ⟨0 + 1, within_of_succ fun depth _ => ?_⟩
    rw [Computation.within, Term.eval]
  | application _ _ _ ihFunction ihArgument ihCall =>
    obtain ⟨d₁, h₁⟩ := ihFunction
    obtain ⟨d₂, h₂⟩ := ihArgument
    obtain ⟨d₃, h₃⟩ := ihCall
    refine ⟨max d₁ (max d₂ d₃) + 1, within_of_succ fun depth hdepth => ?_⟩
    have e₁ := h₁ depth (by omega)
    have e₂ := h₂ depth (by omega)
    have e₃ := h₃ depth (by omega)
    simp only [Computation.within] at e₁ e₂ e₃
    rw [Computation.within, Term.eval, e₁]
    change (Term.eval globals depth _ _ >>= _) = _
    rw [e₂]
    exact e₃
  | sequence _ _ ihFunction ihCalls =>
    obtain ⟨d₁, h₁⟩ := ihFunction
    obtain ⟨d₂, h₂⟩ := ihCalls
    refine ⟨max d₁ d₂ + 1, within_of_succ fun depth hdepth => ?_⟩
    have e₁ := h₁ depth (by omega)
    have e₂ := h₂ depth (by omega)
    simp only [Computation.within] at e₁ e₂
    rw [Computation.within, Term.eval, e₁]
    exact e₂
  | closure _ ih =>
    obtain ⟨d, h⟩ := ih
    refine ⟨d + 1, within_of_succ fun depth hdepth => ?_⟩
    rw [Computation.within, Value.apply]
    exact h depth (by omega)
  | counter =>
    refine ⟨0 + 1, within_of_succ fun depth _ => ?_⟩
    rw [Computation.within, Value.apply]
  | done =>
    refine ⟨0 + 1, within_of_succ fun depth _ => ?_⟩
    rw [Computation.within, Value.applyAll]
  | next _ _ _ ihArgument ihResult ihCalls =>
    obtain ⟨d₁, h₁⟩ := ihArgument
    obtain ⟨d₂, h₂⟩ := ihResult
    obtain ⟨d₃, h₃⟩ := ihCalls
    refine ⟨max d₁ (max d₂ d₃) + 1, within_of_succ fun depth hdepth => ?_⟩
    have e₁ := h₁ depth (by omega)
    have e₂ := h₂ depth (by omega)
    have e₃ := h₃ depth (by omega)
    simp only [Computation.within] at e₁ e₂ e₃
    rw [Computation.within, Value.applyAll, e₁]
    change (Value.apply globals depth _ _ >>= _) = _
    rw [e₂]
    exact e₃

end Computation

/-! ### Answers of programs -/

namespace Value

variable {globals : Scope} {value : Value}

/-- What a function gives at one argument and then at another. -/
def Yields (globals : Scope) (value first second result : Value) : Prop :=
  ∃ function, Computation.Ends globals (.ofCall value first) function ∧
    Computation.Ends globals (.ofCall function second) result

/-- A decoding that ends well has made the two calls, and has read the answer off their result. -/
theorem exists_yields {α : Type} {first second : Value} {read : Value → Except Halt α}
    {depth : Nat} {answer : α}
    (h : (value.apply globals depth first >>= fun function =>
      function.apply globals depth second >>= read) = .ok answer) :
    ∃ result, value.Yields globals first second result ∧ read result = .ok answer := by
  obtain ⟨function, hfunction, h⟩ := ok_of_bind h
  obtain ⟨result, hresult, hread⟩ := ok_of_bind h
  exact ⟨result, ⟨function, Computation.ends_of_within hfunction,
    Computation.ends_of_within hresult⟩, hread⟩

/-- Two calls that are derived by the rules are made within some depth. -/
theorem Yields.exists_depth {α : Type} {first second result : Value}
    (h : value.Yields globals first second result) (read : Value → Except Halt α) :
    ∃ depth, (value.apply globals depth first >>= fun function =>
      function.apply globals depth second >>= read) = read result := by
  obtain ⟨function, hfirst, hsecond⟩ := h
  obtain ⟨d₁, h₁⟩ := hfirst.within
  obtain ⟨d₂, h₂⟩ := hsecond.within
  refine ⟨max d₁ d₂, ?_⟩
  have e₁ : value.apply globals (max d₁ d₂) first = .ok function := h₁ _ (Nat.le_max_left d₁ d₂)
  have e₂ : function.apply globals (max d₁ d₂) second = .ok result :=
    h₂ _ (Nat.le_max_right d₁ d₂)
  rw [e₁]
  change (function.apply globals (max d₁ d₂) second >>= read) = _
  rw [e₂]
  rfl

/-- Decoding a numeral is looking what it makes of the counting function and zero. -/
theorem yields_of_toNat {depth n : Nat} (h : value.toNat globals depth = .ok n) :
    value.Yields globals .counter (.count 0) (.count n) := by
  obtain ⟨result, hyields, hread⟩ := exists_yields h
  cases result with
  | count m =>
    cases hread
    exact hyields
  | _ => cases hread

theorem toNat_of_yields {n : Nat} (h : value.Yields globals .counter (.count 0) (.count n)) :
    ∃ depth, value.toNat globals depth = .ok n :=
  h.exists_depth _

theorem exists_toNat_iff {n : Nat} :
    (∃ depth, value.toNat globals depth = .ok n) ↔
      value.Yields globals .counter (.count 0) (.count n) :=
  ⟨fun ⟨_, h⟩ => yields_of_toNat h, toNat_of_yields⟩

/-- Decoding a boolean is looking which of the two marks it chooses. -/
theorem yields_of_toBool {depth : Nat} {truth : Bool} (h : value.toBool globals depth = .ok truth) :
    value.Yields globals (.mark true) (.mark false) (.mark truth) := by
  obtain ⟨result, hyields, hread⟩ := exists_yields h
  cases result with
  | mark found =>
    cases hread
    exact hyields
  | _ => cases hread

theorem toBool_of_yields {truth : Bool}
    (h : value.Yields globals (.mark true) (.mark false) (.mark truth)) :
    ∃ depth, value.toBool globals depth = .ok truth :=
  h.exists_depth _

end Value

/-- **The answer of a program**: evaluating the program ends, within some depth, with a last value,
and decoding that value ends, within some depth, with the answer. -/
def Program.Answers {α : Type} (program : Program)
    (decode : Scope → Nat → Value → Except Halt α) (answer : α) : Prop :=
  ∃ depth machine value, Machine.run depth program = .ok machine ∧ machine.last = some value ∧
    ∃ depth, decode machine.globals depth value = .ok answer

/-- An answer can be computed, within any depth that suffices for it. -/
theorem Program.answers_of_run {α : Type} {program : Program}
    {decode : Scope → Nat → Value → Except Halt α} {answer : α} (depth : Nat)
    (h : ((Machine.run depth program).toOption.bind fun machine => machine.last.bind fun value =>
      (decode machine.globals depth value).toOption) = some answer) :
    program.Answers decode answer := by
  obtain ⟨machine, hrun, h⟩ := Option.bind_eq_some_iff.mp h
  obtain ⟨value, hlast, hdecode⟩ := Option.bind_eq_some_iff.mp h
  exact ⟨depth, machine, value, ok_of_toOption hrun, hlast, depth, ok_of_toOption hdecode⟩

end ParenLambda
