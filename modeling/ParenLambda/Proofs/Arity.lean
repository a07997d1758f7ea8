import Mathlib.Data.List.Forall2
import ParenLambda.Proofs.Worklist

/-!
# The first fault of arity

A form has a fault of its own if it has the wrong number of members
(`ParenLambda.Form.arityFault?`), whatever is inside these. If no form of a list, at any depth, has
one, then every form has a term, node by node (`ParenLambda.Form.Translates`); if some have, the one
reported is the first in **post-order**, where the members of a form come before it, from left to
right.

The work list finds an empty group when it comes to visit it and the other faults when it gathers the
members, that is on the way down and on the way up. The order is one and the same nevertheless, since
an empty group has nothing in front of it in its own post-order. On the side of the recursion
`ParenLambda.Term.ofForm` this needs no argument at all, and the two agree by
`ParenLambda.Term.work_visit`.
-/

namespace ParenLambda

namespace Form

/-! ### Faults of single forms, and their order -/

mutual

/-- **The forms in a form in post-order**: those in its members, from left to right, and then the form
itself. -/
def postorder : Form → List Form
  | atom name => [atom name]
  | group members span => postorderAll members ++ [group members span]
  | binding kind name members span => postorderAll members ++ [binding kind name members span]

/-- The forms in a list of forms in post-order. -/
def postorderAll : List Form → List Form
  | [] => []
  | form :: rest => form.postorder ++ postorderAll rest

end

/-- **The fault that a form has by itself**: it is an empty group, or a group that does not start with a
binding and has not exactly two members, or a binding that has not exactly one. -/
def arityFault? : Form → Option Fault
  | atom _ => none
  | group [] span => some (.emptyGroup span)
  | group (first :: rest) span =>
    if first.isBinding ∨ (first :: rest).length = 2 then none
    else some (.applicationArity (first :: rest).length span)
  | binding kind name members span =>
    if members.length = 1 then none else some (.bindingArity kind name members.length span)

/-- **The term of a form, node by node.** There is no rule for a form with a fault of its own. -/
inductive Translates : Form → Term → Prop
  /-- A word is a name. -/
  | atom (name : String) : Translates (.atom name) (.atom name)
  /-- `(let NAME VALUE)` -/
  | definition {name : String} {member : Form} {value : Term} {span : Span}
      (hvalue : Translates member value) :
      Translates (.binding .definition name [member] span) (.definition name value)
  /-- `(λ PARAMETER BODY)` -/
  | abstraction {parameter : String} {member : Form} {body : Term} {span : Span}
      (hbody : Translates member body) :
      Translates (.binding .abstraction parameter [member] span) (.abstraction parameter body)
  /-- A group of two that does not start with a binding. -/
  | application {first second : Form} {operator operand : Term} {span : Span}
      (hbinding : first.isBinding = false) (hoperator : Translates first operator)
      (hoperand : Translates second operand) :
      Translates (.group [first, second] span) (.application operator operand)
  /-- A group that starts with a binding. -/
  | sequence {first : Form} {rest : List Form} {members : List Term} {span : Span}
      (hbinding : first.isBinding = true)
      (hmembers : List.Forall₂ Translates (first :: rest) members) :
      Translates (.group (first :: rest) span) (.sequence members)

/-- The outcome of a translation is what the faults of the forms visited for it say: a fault is the
first of these, and where there is none, the translation succeeds as it should. -/
def Agrees {α : Type} (visited : List Form) (Right : α → Prop) : Except Fault α → Prop
  | .ok value => visited.findSome? arityFault? = none ∧ Right value
  | .error fault => visited.findSome? arityFault? = some fault

variable {α : Type} {visited : List Form} {Right : α → Prop} {outcome : Except Fault α}

/-- The first fault is not changed by what is visited afterwards. -/
theorem findSome?_append_of_eq_some {fault : Fault} (h : visited.findSome? arityFault? = some fault)
    (others : List Form) : (visited ++ others).findSome? arityFault? = some fault := by
  rw [List.findSome?_append, h]
  rfl

/-- Forms without a fault in front change nothing. -/
theorem findSome?_append_of_eq_none (h : visited.findSome? arityFault? = none)
    (others : List Form) :
    (visited ++ others).findSome? arityFault? = others.findSome? arityFault? := by
  rw [List.findSome?_append, h]
  rfl

theorem Agrees.behind {others : List Form} (hothers : others.findSome? arityFault? = none)
    (h : Agrees visited Right outcome) : Agrees (others ++ visited) Right outcome := by
  have heq := findSome?_append_of_eq_none hothers visited
  cases outcome with
  | ok value => exact ⟨heq.trans h.1, h.2⟩
  | error fault => exact heq.trans h

theorem Agrees.exists_ok (h : Agrees visited Right outcome)
    (hnone : visited.findSome? arityFault? = none) : ∃ value, outcome = .ok value ∧ Right value := by
  cases outcome with
  | ok value => exact ⟨value, rfl, h.2⟩
  | error fault => cases hnone.symm.trans h

theorem Agrees.eq_error (h : Agrees visited Right outcome) {fault : Fault}
    (hfirst : visited.findSome? arityFault? = some fault) : outcome = .error fault := by
  cases outcome with
  | ok value => cases hfirst.symm.trans h.1
  | error found =>
    cases hfirst.symm.trans h
    rfl

end Form

/-! ### One form -/

namespace Term

open Form

variable {members : List Form} {terms : List Term}

theorem agrees_ofBinding (kind : Introducer) (name : String) (span : Span)
    (h : List.Forall₂ Translates members terms) :
    Agrees [.binding kind name members span] (Translates (.binding kind name members span))
      (ofBinding kind name span terms) := by
  rcases h with _ | ⟨hmember, _ | ⟨hsecond, hrest⟩⟩
  · rfl
  · cases kind with
    | definition => exact ⟨rfl, .definition hmember⟩
    | abstraction => exact ⟨rfl, .abstraction hmember⟩
  · have hlength := hrest.length_eq
    simp [Agrees, ofBinding, arityFault?, hlength]

theorem agrees_ofGroup {first : Form} {rest : List Form} (span : Span)
    (h : List.Forall₂ Translates (first :: rest) terms) :
    Agrees [.group (first :: rest) span] (Translates (.group (first :: rest) span))
      (ofGroup first.isBinding span terms) := by
  cases hbinding : first.isBinding with
  | true =>
    refine ⟨?_, .sequence hbinding h⟩
    simp [arityFault?, hbinding]
  | false =>
    rcases h with _ | ⟨hfirst, _ | ⟨hsecond, _ | ⟨hthird, hrest⟩⟩⟩
    · simp [Agrees, ofGroup, arityFault?, hbinding]
    · exact ⟨by simp [arityFault?], .application hbinding hfirst hsecond⟩
    · have hlength := hrest.length_eq
      simp [Agrees, ofGroup, arityFault?, hbinding, hlength]

/-! ### Forms at any depth -/

theorem agrees_ofForms_of_forall
    (h : ∀ form ∈ members, Agrees form.postorder form.Translates (ofForm form)) :
    Agrees (postorderAll members) (List.Forall₂ Translates members) (ofForms members) := by
  induction members with
  | nil => exact ⟨rfl, .nil⟩
  | cons form rest ih =>
    have hform := h form List.mem_cons_self
    have hrest := ih fun other hother => h other (List.mem_cons_of_mem _ hother)
    rw [postorderAll, ofForms]
    cases hhead : ofForm form with
    | error fault =>
      rw [hhead] at hform
      exact findSome?_append_of_eq_some hform _
    | ok head =>
      rw [hhead] at hform
      have heq := findSome?_append_of_eq_none hform.1 (postorderAll rest)
      cases htail : ofForms rest with
      | error fault =>
        rw [htail] at hrest
        exact heq.trans hrest
      | ok tail =>
        rw [htail] at hrest
        exact ⟨heq.trans hrest.1, .cons hform.2 hrest.2⟩

/-- **The outcome for a form is what its forms in post-order say.** -/
theorem agrees_ofForm (form : Form) : Agrees form.postorder form.Translates (ofForm form) := by
  induction form using Form.induction with
  | atom name => exact ⟨rfl, .atom name⟩
  | group members span ih =>
    cases members with
    | nil => rfl
    | cons first rest =>
      have hmembers := agrees_ofForms_of_forall ih
      rw [postorder, ofForm_group]
      cases hterms : ofForms (first :: rest) with
      | error fault =>
        rw [hterms] at hmembers
        exact findSome?_append_of_eq_some hmembers _
      | ok terms =>
        rw [hterms] at hmembers
        exact (agrees_ofGroup span hmembers.2).behind hmembers.1
  | binding kind name members span ih =>
    have hmembers := agrees_ofForms_of_forall ih
    rw [postorder, ofForm]
    cases hterms : ofForms members with
    | error fault =>
      rw [hterms] at hmembers
      exact findSome?_append_of_eq_some hmembers _
    | ok terms =>
      rw [hterms] at hmembers
      exact (agrees_ofBinding kind name span hmembers.2).behind hmembers.1

theorem agrees_ofForms (forms : List Form) :
    Agrees (postorderAll forms) (List.Forall₂ Translates forms) (ofForms forms) :=
  agrees_ofForms_of_forall fun form _ => agrees_ofForm form

end Term

/-! ### Programs -/

namespace Program

/-- **The program of forms, and the first fault in them.** If no form at any depth has a fault of its
own, the program has one term for each form in order, and each is the term of the form node by node;
otherwise the fault is that of the first form in post-order that has one. Taking terms off the pile
fails where more are asked for than there are, and the work never comes to that. -/
theorem ofForms_postorder (forms : List Form) :
    ((∀ form ∈ Form.postorderAll forms, form.arityFault? = none) →
      ∃ terms, ofForms forms = .ok ⟨terms⟩ ∧ List.Forall₂ Form.Translates forms terms) ∧
    (∀ before form after fault, Form.postorderAll forms = before ++ form :: after →
      (∀ earlier ∈ before, earlier.arityFault? = none) → form.arityFault? = some fault →
      ofForms forms = .error fault) ∧
    (∀ count (pile : List Term), unpile count pile = none ↔ pile.length < count) ∧
    Term.work (Term.Task.visitAll forms) [] ≠ none := by
  have hagrees := Term.agrees_ofForms forms
  refine ⟨?_, ?_, fun count pile => unpile_eq_none_iff, ?_⟩
  · intro hnone
    obtain ⟨terms, hterms, htranslates⟩ :=
      hagrees.exists_ok (List.findSome?_eq_none_iff.mpr hnone)
    refine ⟨terms, ?_, htranslates⟩
    rw [ofForms_eq, hterms]
    rfl
  · intro before form after fault hforms hbefore hform
    have hfirst : (Form.postorderAll forms).findSome? Form.arityFault? = some fault :=
      List.findSome?_eq_some_iff.mpr ⟨before, form, after, hforms, hform, hbefore⟩
    rw [ofForms_eq, hagrees.eq_error hfirst]
    rfl
  · rw [Term.work_visitAll]
    exact Option.some_ne_none _

/-- The forms of `((λ x x) y)`. -/
def soundForms : List Form :=
  [.group [.binding .abstraction "x" [.atom "x"] ⟨1, 8⟩, .atom "y"] ⟨0, 11⟩]

/-- The forms of `(a (b) () c)`. The first fault in post-order is that of `(b)`, which has too few
members; the empty group and the group around both come later. -/
def faultyForms : List Form :=
  [.group [.atom "a", .group [.atom "b"] ⟨3, 6⟩, .group [] ⟨7, 9⟩, .atom "c"] ⟨0, 12⟩]

theorem ofForms_postorder_examples :
    (∀ form ∈ Form.postorderAll soundForms, form.arityFault? = none) ∧
    (∃ terms, ofForms soundForms = .ok ⟨terms⟩ ∧ List.Forall₂ Form.Translates soundForms terms) ∧
    ofForms faultyForms = .error (.applicationArity 1 ⟨3, 6⟩) := by
  have hsound : ∀ form ∈ Form.postorderAll soundForms, form.arityFault? = none :=
    List.findSome?_eq_none_iff.mp rfl
  refine ⟨hsound, (ofForms_postorder soundForms).1 hsound, ?_⟩
  refine (ofForms_postorder faultyForms).2.1 [.atom "a", .atom "b"] (.group [.atom "b"] ⟨3, 6⟩)
    _ _ rfl ?_ rfl
  exact List.findSome?_eq_none_iff.mp rfl

end Program

end ParenLambda
