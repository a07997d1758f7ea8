import ParenLambda.Proofs.Evaluation.Derivation

/-!
# What a computation attains

A program that builds its data out of functions never shows what it has built: two numerals of the
same number are different functions in different scopes. What can be said of a value is how it behaves
when it is called. So the theory of such programs speaks of *properties* of values, and of a
computation it says that it ends in a value with a property, `ParenLambda.Computation.Attains`.

Read backwards, a property to be attained by a term becomes one to be attained by its parts, in the
order in which they are evaluated: there is one rule for each kind of term, all of them equivalences
and all of them `simp` lemmas. Rewriting with them runs a term whose scope is known, and stops at the
calls of functions that are not known; these are what the lemmas on the functions are for.
-/

namespace ParenLambda

namespace Computation

variable {globals scope : Scope} {computation : Computation}

/-- **A computation ends in one value only.** -/
theorem Ends.unique {value value' : Value} (h : computation.Ends globals value)
    (h' : computation.Ends globals value') : value = value' := by
  obtain ⟨least, hleast⟩ := h.within
  obtain ⟨least', hleast'⟩ := h'.within
  have hvalue := hleast (max least least') (Nat.le_max_left least least')
  rw [hleast' (max least least') (Nat.le_max_right least least')] at hvalue
  exact (Except.ok.inj hvalue).symm

/-- **A computation attains a property**: it ends, in a value that has the property. -/
def Attains (globals : Scope) (computation : Computation) (property : Value → Prop) : Prop :=
  ∃ value, computation.Ends globals value ∧ property value

variable {property : Value → Prop}

theorem Attains.imp {weaker : Value → Prop} (h : computation.Attains globals property)
    (himp : ∀ value, property value → weaker value) : computation.Attains globals weaker := by
  obtain ⟨value, hends, hvalue⟩ := h
  exact ⟨value, hends, himp value hvalue⟩

/-- What a computation attains one by one it attains all at once, since it ends in one value only. -/
theorem attains_forall {ι : Type} [inhabited : Nonempty ι] {properties : ι → Value → Prop}
    (h : ∀ i, computation.Attains globals (properties i)) :
    computation.Attains globals fun value => ∀ i, properties i value := by
  obtain ⟨some⟩ := inhabited
  obtain ⟨value, hends, -⟩ := h some
  refine ⟨value, hends, fun i => ?_⟩
  obtain ⟨_, hends', hvalue⟩ := h i
  rwa [hends.unique hends']

/-! ### One rule for each kind of computation -/

/-- A name in scope, or else a global one. -/
@[simp] theorem attains_atom {name : String} :
    (ofTerm scope (.atom name)).Attains globals property ↔
      ∃ value, (scope.find? name).or (globals.find? name) = some value ∧ property value := by
  constructor
  · rintro ⟨value, hends, hvalue⟩
    refine ⟨value, ?_, hvalue⟩
    cases hends with
    | bound hlocal => rw [hlocal, Option.some_or]
    | global hlocal hglobal => rw [hlocal, Option.none_or, hglobal]
  · rintro ⟨value, hfound, hvalue⟩
    refine ⟨value, ?_, hvalue⟩
    rcases Option.or_eq_some_iff.mp hfound with hlocal | ⟨hlocal, hglobal⟩
    · exact .bound hlocal
    · exact .global hlocal hglobal

@[simp] theorem attains_abstraction {parameter : String} {body : Term} :
    (ofTerm scope (.abstraction parameter body)).Attains globals property ↔
      property (.closure parameter body scope) := by
  constructor
  · rintro ⟨_, ⟨⟩, hvalue⟩
    exact hvalue
  · exact fun hvalue => ⟨_, .abstraction, hvalue⟩

/-- The operator, then the operand, then the call. -/
@[simp] theorem attains_application {operator operand : Term} :
    (ofTerm scope (.application operator operand)).Attains globals property ↔
      (ofTerm scope operator).Attains globals fun function =>
        (ofTerm scope operand).Attains globals fun argument =>
          (ofCall function argument).Attains globals property := by
  constructor
  · rintro ⟨value, hends, hvalue⟩
    cases hends with
    | application hfunction hargument hcall => exact ⟨_, hfunction, _, hargument, value, hcall, hvalue⟩
  · rintro ⟨function, hfunction, argument, hargument, value, hcall, hvalue⟩
    exact ⟨value, .application hfunction hargument hcall, hvalue⟩

@[simp] theorem attains_sequence {first : Term} {rest : List Term} :
    (ofTerm scope (.sequence (first :: rest))).Attains globals property ↔
      (ofTerm scope first).Attains globals fun function =>
        (ofCalls scope function rest).Attains globals property := by
  constructor
  · rintro ⟨value, hends, hvalue⟩
    cases hends with
    | sequence hfunction hcalls => exact ⟨_, hfunction, value, hcalls, hvalue⟩
  · rintro ⟨function, hfunction, value, hcalls, hvalue⟩
    exact ⟨value, .sequence hfunction hcalls, hvalue⟩

@[simp] theorem attains_calls_nil {function : Value} :
    (ofCalls scope function []).Attains globals property ↔ property function := by
  constructor
  · rintro ⟨_, ⟨⟩, hvalue⟩
    exact hvalue
  · exact fun hvalue => ⟨_, .done, hvalue⟩

/-- The call at the first term comes before the other terms. -/
@[simp] theorem attains_calls_cons {function : Value} {term : Term} {rest : List Term} :
    (ofCalls scope function (term :: rest)).Attains globals property ↔
      (ofTerm scope term).Attains globals fun argument =>
        (ofCall function argument).Attains globals fun result =>
          (ofCalls scope result rest).Attains globals property := by
  constructor
  · rintro ⟨value, hends, hvalue⟩
    cases hends with
    | next hargument hresult hcalls => exact ⟨_, hargument, _, hresult, value, hcalls, hvalue⟩
  · rintro ⟨argument, hargument, result, hresult, value, hcalls, hvalue⟩
    exact ⟨value, .next hargument hresult hcalls, hvalue⟩

/-- The body, where the parameter means the argument. -/
@[simp] theorem attains_closure {parameter : String} {body : Term} {argument : Value} :
    (ofCall (.closure parameter body scope) argument).Attains globals property ↔
      (ofTerm (.bind parameter argument scope) body).Attains globals property := by
  constructor
  · rintro ⟨value, hends, hvalue⟩
    cases hends with
    | closure hbody => exact ⟨value, hbody, hvalue⟩
  · rintro ⟨value, hbody, hvalue⟩
    exact ⟨value, .closure hbody, hvalue⟩

end Computation

/-! ### Functions between properties -/

/-- **A function maps one property to another**: called at a value with the first, it ends in a value
with the second. -/
def Value.Maps (globals : Scope) (given gained : Value → Prop) (function : Value) : Prop :=
  ∀ argument, given argument → (Computation.ofCall function argument).Attains globals gained

/-- A term that attains a function, applied to one that attains an argument for it. -/
theorem Computation.Attains.application {globals scope : Scope} {given gained : Value → Prop}
    {operator operand : Term}
    (hoperator : (ofTerm scope operator).Attains globals (Value.Maps globals given gained))
    (hoperand : (ofTerm scope operand).Attains globals given) :
    (ofTerm scope (.application operator operand)).Attains globals gained := by
  rw [attains_application]
  refine hoperator.imp fun function hfunction => ?_
  exact hoperand.imp hfunction

end ParenLambda
