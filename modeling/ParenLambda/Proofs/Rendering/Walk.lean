import ParenLambda.Proofs.Induction
import ParenLambda.Rendering.Walk

/-!
# The work list renders the terms

`ParenLambda.Rules.walk` renders a program with a list of steps, a pile of texts and a scope;
`ParenLambda.Rules.text` renders it by recursion on its terms. They agree for every table of rules,
whatever its rules do with the state: entering a term puts its text on the pile and leaves the steps
behind it, the scope and what lay on the pile as they were, in the state that the recursion ends in.

The statement is about any steps, any scope and any pile. The scope is the point: the step that ends an
abstraction drops the innermost parameter, so entering the body has to give the scope back as it
found it, with the parameter on top.
-/

namespace ParenLambda

namespace Rules

variable {σ : Type} (rules : Rules σ) (scope : List String)

/-! ### The recursion, in a state -/

theorem text_definition (name : String) (value : Term) (state : σ) :
    rules.text scope (.definition name value) state =
      rules.definition name (rules.text scope value state).1 (rules.text scope value state).2 := by
  rw [text]
  rfl

theorem text_abstraction (parameter : String) (body : Term) (state : σ) :
    rules.text scope (.abstraction parameter body) state =
      rules.abstraction parameter (rules.text (parameter :: scope) body state).1
        (rules.text (parameter :: scope) body state).2 := by
  rw [text]
  rfl

/-- The operator is rendered first, and the operand in the state it leaves behind. -/
theorem text_application (operator operand : Term) (state : σ) :
    rules.text scope (.application operator operand) state =
      rules.application (rules.text scope operator state).1
        (rules.text scope operand (rules.text scope operator state).2).1
        (rules.text scope operand (rules.text scope operator state).2).2 := by
  rw [text]
  rfl

theorem text_sequence (members : List Term) (state : σ) :
    rules.text scope (.sequence members) state =
      rules.sequence (rules.texts scope members state).1 (rules.texts scope members state).2 := by
  rw [text]
  rfl

theorem texts_nil (state : σ) : rules.texts scope [] state = ([], state) := rfl

theorem texts_cons (term : Term) (rest : List Term) (state : σ) :
    rules.texts scope (term :: rest) state =
      ((rules.text scope term state).1 ::
        (rules.texts scope rest (rules.text scope term state).2).1,
        (rules.texts scope rest (rules.text scope term state).2).2) := by
  rw [texts]
  rfl

theorem length_texts (terms : List Term) (state : σ) :
    (rules.texts scope terms state).1.length = terms.length := by
  induction terms generalizing state with
  | nil => rfl
  | cons term rest ih => rw [texts_cons, List.length_cons, List.length_cons, ih]

/-! ### Entering -/

/-- Entering the terms of a list one after the other puts their texts on the pile, if entering each of
them does. -/
theorem walk_enterAll_of_forall {terms : List Term}
    (h : ∀ term ∈ terms, ∀ steps pile state,
      rules.walk (.enter term :: steps) scope pile state =
        rules.walk steps scope ((rules.text scope term state).1 :: pile)
          (rules.text scope term state).2)
    (steps : List Step) (pile : List String) (state : σ) :
    rules.walk (Step.enterAll terms ++ steps) scope pile state =
      rules.walk steps scope ((rules.texts scope terms state).1.reverse ++ pile)
        (rules.texts scope terms state).2 := by
  induction terms generalizing pile state with
  | nil => rfl
  | cons term rest ih =>
    have hterm := h term List.mem_cons_self (Step.enterAll rest ++ steps) pile state
    have hrest := ih fun other hother => h other (List.mem_cons_of_mem _ hother)
    rw [texts_cons, List.reverse_cons, List.append_assoc, List.singleton_append, ← hrest, ← hterm]
    rfl

/-- **Entering a term** puts its text on the pile and leaves everything else as it was. -/
theorem walk_enter (term : Term) (steps : List Step) (pile : List String) (state : σ) :
    rules.walk (.enter term :: steps) scope pile state =
      rules.walk steps scope ((rules.text scope term state).1 :: pile)
        (rules.text scope term state).2 := by
  induction term using Term.induction generalizing scope steps pile state with
  | atom name =>
    rw [walk, text]
    rfl
  | definition name value ih =>
    rw [walk, ih, walk, text_definition]
    rfl
  | abstraction parameter body ih =>
    rw [walk, ih, walk, text_abstraction, List.tail_cons]
    rfl
  | application operator operand ihOperator ihOperand =>
    rw [walk, ihOperator, ihOperand, walk, text_application]
    rfl
  | sequence members ih =>
    have hmembers : ∀ member ∈ members, _ := fun member hmember => ih member hmember scope
    have hlength := rules.length_texts scope members state
    rw [walk, rules.walk_enterAll_of_forall scope hmembers, walk, ← hlength, unpile_append,
      text_sequence]
    rfl

/-! ### Programs -/

/-- The walk through one term ends with its text on the pile and nothing else. -/
theorem walk_eq (term : Term) (state : σ) :
    rules.walk [.enter term] [] [] state =
      some ([(rules.text [] term state).1], (rules.text [] term state).2) := by
  rw [walk_enter, walk]

theorem item_eq (term : Term) (state : σ) : rules.item term state = rules.text [] term state := by
  rw [item, walk_eq]
  rfl

theorem items_eq (terms : List Term) (state : σ) :
    rules.items terms state = rules.texts [] terms state := by
  induction terms generalizing state with
  | nil => rfl
  | cons term rest ih =>
    rw [items, item_eq, texts_cons, ← ih]
    rfl

theorem render_eq (program : Program) :
    rules.render program =
      rules.program (rules.texts [] program.body rules.start).1
        (rules.texts [] program.body rules.start).2 := by
  rw [render, items_eq]
  rfl

/-- **Rendering is the recursion on the terms**, for every table of rules: the items are rendered in
order from the start state, each outside all abstractions, and the text of the program is made of
their texts in the state they end in. The walk through a term, in any state, ends with the text of
the term as the whole pile, so no step ever finds the pile too low. -/
theorem render_recursive (program : Program) :
    rules.items program.body rules.start = rules.texts [] program.body rules.start ∧
    rules.render program =
      rules.program (rules.texts [] program.body rules.start).1
        (rules.texts [] program.body rules.start).2 ∧
    ∀ term state,
      rules.walk [.enter term] [] [] state =
        some ([(rules.text [] term state).1], (rules.text [] term state).2) :=
  ⟨rules.items_eq program.body rules.start, rules.render_eq program, rules.walk_eq⟩

end Rules

end ParenLambda
