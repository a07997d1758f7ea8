import ParenLambda.Proofs.Induction
import ParenLambda.Term.OfForm

/-!
# Forms at other places

A form knows where it stands in its source. This file moves forms to other places by any map of
stretches, and says that the places do not matter for the term of a form: a moved form has the same
term, and where it has a fault, it has the moved fault
(`ParenLambda.Term.ofForm_relocate`). Two maps are of interest, the one that moves a source to the
right and the one that forgets all places, and only for the first is the map of faults more than the
map of their stretches; so the map of faults is a parameter.
-/

namespace ParenLambda

namespace Form

mutual

/-- A form with all its stretches moved. -/
def relocate (move : Span → Span) : Form → Form
  | atom name => atom name
  | group members span => group (relocateAll move members) (move span)
  | binding kind name members span => binding kind name (relocateAll move members) (move span)

/-- A list of forms with all their stretches moved. -/
def relocateAll (move : Span → Span) : List Form → List Form
  | [] => []
  | form :: rest => relocate move form :: relocateAll move rest

end

variable (move : Span → Span)

theorem relocateAll_eq (forms : List Form) : relocateAll move forms = forms.map (relocate move) := by
  induction forms with
  | nil => rfl
  | cons form forms ih => rw [relocateAll, ih, List.map_cons]

@[simp] theorem isBinding_relocate (form : Form) :
    (form.relocate move).isBinding = form.isBinding := by
  cases form <;> rfl

/-- **A form without its places.** -/
def bare (form : Form) : Form :=
  form.relocate fun _ => .point 0

theorem bare_group (members : List Form) (span : Span) :
    (group members span).bare = group (members.map bare) (.point 0) := by
  rw [bare, relocate, relocateAll_eq]
  rfl

theorem bare_binding (kind : Introducer) (name : String) (members : List Form) (span : Span) :
    (binding kind name members span).bare = binding kind name (members.map bare) (.point 0) := by
  rw [bare, relocate, relocateAll_eq]
  rfl

end Form

/-- A map of faults goes with a map of stretches if it moves the stretches of the faults of arity. -/
structure Fault.Carries (move : Span → Span) (carry : Fault → Fault) : Prop where
  /-- The fault of an empty group. -/
  emptyGroup : ∀ span, carry (.emptyGroup span) = .emptyGroup (move span)
  /-- The fault of an application. -/
  applicationArity : ∀ found span,
    carry (.applicationArity found span) = .applicationArity found (move span)
  /-- The fault of a binding. -/
  bindingArity : ∀ kind name found span,
    carry (.bindingArity kind name found span) = .bindingArity kind name found (move span)

/-- A fault with the stretch of a fault of arity moved. -/
def Fault.relocate (move : Span → Span) : Fault → Fault
  | emptyGroup span => emptyGroup (move span)
  | applicationArity found span => applicationArity found (move span)
  | bindingArity kind name found span => bindingArity kind name found (move span)
  | fault => fault

theorem Fault.carries_relocate (move : Span → Span) : Fault.Carries move (Fault.relocate move) :=
  ⟨fun _ => rfl, fun _ _ => rfl, fun _ _ _ _ => rfl⟩

namespace Term

variable {move : Span → Span} {carry : Fault → Fault}

theorem ofBinding_relocate (h : Fault.Carries move carry) (kind : Introducer) (name : String)
    (span : Span) (members : List Term) :
    ofBinding kind name (move span) members = (ofBinding kind name span members).mapError carry := by
  rcases members with _ | ⟨first, _ | ⟨second, rest⟩⟩
  · exact congrArg Except.error (h.bindingArity kind name 0 span).symm
  · cases kind <;> rfl
  · exact congrArg Except.error (h.bindingArity kind name (rest.length + 2) span).symm

theorem ofGroup_relocate (h : Fault.Carries move carry) (bound : Bool) (span : Span)
    (members : List Term) :
    ofGroup bound (move span) members = (ofGroup bound span members).mapError carry := by
  cases bound with
  | true => rfl
  | false =>
    rcases members with _ | ⟨first, _ | ⟨second, _ | ⟨third, rest⟩⟩⟩
    · exact congrArg Except.error (h.applicationArity 0 span).symm
    · exact congrArg Except.error (h.applicationArity 1 span).symm
    · rfl
    · exact congrArg Except.error (h.applicationArity (rest.length + 3) span).symm

theorem ofForms_relocate_of_forall {forms : List Form}
    (h : ∀ form ∈ forms, ofForm (form.relocate move) = (ofForm form).mapError carry) :
    ofForms (Form.relocateAll move forms) = (ofForms forms).mapError carry := by
  induction forms with
  | nil => rfl
  | cons form rest ih =>
    have hrest := ih fun other hother => h other (List.mem_cons_of_mem _ hother)
    rw [Form.relocateAll, ofForms, ofForms, h form List.mem_cons_self, hrest]
    cases ofForm form with
    | error fault => rfl
    | ok head => cases ofForms rest <;> rfl

/-- **The term of a form at another place** is the same, and its fault is the moved one. -/
theorem ofForm_relocate (h : Fault.Carries move carry) (form : Form) :
    ofForm (form.relocate move) = (ofForm form).mapError carry := by
  induction form using Form.induction with
  | atom name => rfl
  | group members span ih =>
    cases members with
    | nil => exact congrArg Except.error (h.emptyGroup span).symm
    | cons first rest =>
      have hrest := ofForms_relocate_of_forall fun other hother =>
        ih other (List.mem_cons_of_mem _ hother)
      rw [Form.relocate, Form.relocateAll, ofForm, ofForm, ih first List.mem_cons_self, hrest,
        Form.isBinding_relocate]
      cases ofForm first with
      | error fault => rfl
      | ok head =>
        cases ofForms rest with
        | error fault => rfl
        | ok tail => exact ofGroup_relocate h first.isBinding span (head :: tail)
  | binding kind name members span ih =>
    rw [Form.relocate, ofForm, ofForm, ofForms_relocate_of_forall ih]
    cases ofForms members with
    | error fault => rfl
    | ok terms => exact ofBinding_relocate h kind name span terms

theorem ofForms_relocate (h : Fault.Carries move carry) (forms : List Form) :
    ofForms (forms.map (Form.relocate move)) = (ofForms forms).mapError carry := by
  rw [← Form.relocateAll_eq]
  exact ofForms_relocate_of_forall fun form _ => ofForm_relocate h form

/-- Forms that are equal but for their places have the same terms. -/
theorem ofForms_of_bare {forms others : List Form} (h : others.map Form.bare = forms.map Form.bare)
    {terms : List Term} (hforms : ofForms forms = .ok terms) : ofForms others = .ok terms := by
  have hcarries := Fault.carries_relocate fun _ => Span.point 0
  have hbare : ofForms (others.map Form.bare) = .ok terms := by
    rw [h]
    exact (ofForms_relocate hcarries forms).trans (by rw [hforms]; rfl)
  have hothers := (ofForms_relocate hcarries others).symm.trans hbare
  cases hterms : ofForms others with
  | error fault =>
    rw [hterms] at hothers
    cases hothers
  | ok found =>
    rw [hterms] at hothers
    exact hothers

end Term

end ParenLambda
