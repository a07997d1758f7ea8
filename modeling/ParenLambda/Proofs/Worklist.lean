import ParenLambda.Proofs.Induction
import ParenLambda.Term.Worklist

/-!
# The work list makes the terms of the forms

`ParenLambda.Term.work` makes the terms of a program with a list of tasks and a pile,
`ParenLambda.Term.ofForms` by recursion on the forms. They agree, faults included: visiting a form
puts its term on the pile and leaves the tasks behind it, or ends the work with the first fault in
it. The statement is about any tasks and any pile, so that the members of a form may be visited in
front of the task that gathers them.
-/

namespace ParenLambda

/-! ### Piles -/

theorem unpileOnto_eq_none_iff {α : Type} {count : Nat} {above pile : List α} :
    unpileOnto count above pile = none ↔ pile.length < count := by
  induction count generalizing above pile with
  | zero => simp [unpileOnto]
  | succ count ih =>
    cases pile with
    | nil => simp [unpileOnto]
    | cons top pile => rw [unpileOnto, ih, List.length_cons, Nat.add_lt_add_iff_right]

/-- Taking elements off a pile fails exactly if there are fewer of them. -/
theorem unpile_eq_none_iff {α : Type} {count : Nat} {pile : List α} :
    unpile count pile = none ↔ pile.length < count :=
  unpileOnto_eq_none_iff

namespace Term

/-! ### Lists of forms -/

/-- The terms of a list of forms are as many as the forms. -/
theorem length_of_ofForms {forms : List Form} {terms : List Term} (h : ofForms forms = .ok terms) :
    terms.length = forms.length := by
  induction forms generalizing terms with
  | nil =>
    cases h
    rfl
  | cons form rest ih =>
    rw [ofForms] at h
    cases hform : ofForm form with
    | error fault => simp [hform] at h
    | ok head =>
      cases hrest : ofForms rest with
      | error fault => simp [hform, hrest] at h
      | ok tail =>
        obtain rfl : head :: tail = terms := by simpa [hform, hrest] using h
        rw [List.length_cons, List.length_cons, ih hrest]

/-- What the terms of a group's members make of it. -/
theorem ofForm_group (first : Form) (rest : List Form) (span : Span) :
    ofForm (.group (first :: rest) span) =
      match ofForms (first :: rest) with
      | .ok terms => ofGroup first.isBinding span terms
      | .error fault => .error fault := by
  rw [ofForm, ofForms]
  cases ofForm first with
  | error fault => rfl
  | ok head => cases ofForms rest <;> rfl

/-! ### Visiting -/

/-- Visiting the forms of a list one after the other puts their terms on the pile, if visiting each of
them does. -/
theorem work_visitAll_of_forall {forms : List Form}
    (h : ∀ form ∈ forms, ∀ tasks pile,
      work (.visit form :: tasks) pile =
        match ofForm form with
        | .ok term => work tasks (term :: pile)
        | .error fault => some (.error fault))
    (tasks : List Task) (pile : List Term) :
    work (Task.visitAll forms ++ tasks) pile =
      match ofForms forms with
      | .ok terms => work tasks (terms.reverse ++ pile)
      | .error fault => some (.error fault) := by
  induction forms generalizing pile with
  | nil => rfl
  | cons form rest ih =>
    have hvisit := h form List.mem_cons_self (Task.visitAll rest ++ tasks) pile
    rw [Task.visitAll, List.map_cons, List.cons_append, ofForms]
    rw [Task.visitAll] at hvisit
    rw [hvisit]
    cases ofForm form with
    | error fault => rfl
    | ok head =>
      have htail := ih (fun other hother => h other (List.mem_cons_of_mem _ hother)) (head :: pile)
      rw [Task.visitAll] at htail
      simp only [htail]
      cases ofForms rest with
      | error fault => rfl
      | ok tail => simp

/-- **Visiting a form** puts its term on the pile, or ends the work with the first fault in it. -/
theorem work_visit (form : Form) (tasks : List Task) (pile : List Term) :
    work (.visit form :: tasks) pile =
      match ofForm form with
      | .ok term => work tasks (term :: pile)
      | .error fault => some (.error fault) := by
  induction form using Form.induction generalizing tasks pile with
  | atom name => rw [work, ofForm]
  | group members span ih =>
    cases members with
    | nil => rw [work, ofForm]
    | cons first rest =>
      rw [work, work_visitAll_of_forall ih, ofForm_group]
      cases hterms : ofForms (first :: rest) with
      | error fault => rfl
      | ok terms =>
        have hlength : terms.length = rest.length + 1 := length_of_ofForms hterms
        simp only
        rw [work, ← hlength, unpile_append]
        simp only
        cases ofGroup first.isBinding span terms <;> rfl
  | binding kind name members span ih =>
    rw [work, work_visitAll_of_forall ih, ofForm]
    cases hterms : ofForms members with
    | error fault => rfl
    | ok terms =>
      simp only
      rw [work, ← length_of_ofForms hterms, unpile_append]
      simp only
      cases ofBinding kind name span terms <;> rfl

/-- **The work ends with an answer**: the terms of all forms on the pile, or the first fault. -/
theorem work_visitAll (forms : List Form) :
    work (Task.visitAll forms) [] = some ((ofForms forms).map List.reverse) := by
  have hvisit : ∀ form ∈ forms, _ := fun form _ => work_visit form
  have hwork := work_visitAll_of_forall hvisit [] []
  rw [List.append_nil] at hwork
  rw [hwork]
  cases ofForms forms with
  | error fault => rfl
  | ok terms =>
    simp only [work, List.append_nil]
    rfl

end Term

/-- **The program of a list of forms** is made of their terms. -/
theorem Program.ofForms_eq (forms : List Form) :
    Program.ofForms forms = (Term.ofForms forms).map Program.mk := by
  rw [Program.ofForms, Term.work_visitAll]
  cases Term.ofForms forms with
  | error fault => rfl
  | ok terms =>
    simp only [Except.map, List.reverse_reverse]

end ParenLambda
