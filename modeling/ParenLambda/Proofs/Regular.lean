import ParenLambda.Proofs.Concatenation
import ParenLambda.Proofs.Induction

/-!
# Which terms come out of compiling

Whether a group becomes an application or a sequence depends on its first member alone, and a form
that becomes a binding is one already. So the terms that compiling yields are **regular**: a sequence
starts with a binding, and the operator of an application is none.
-/

namespace ParenLambda

namespace Term

mutual

/-- **Regular terms**: every sequence has a binding as its first member, and no application has a
binding as its operator. -/
def isRegular : Term → Bool
  | atom _ => true
  | definition _ value => value.isRegular
  | abstraction _ body => body.isRegular
  | application operator operand =>
    !operator.isBinding && (operator.isRegular && operand.isRegular)
  | sequence members => members.head?.any isBinding && areRegular members

/-- Whether every term of a list is regular. -/
def areRegular : List Term → Bool
  | [] => true
  | term :: rest => term.isRegular && areRegular rest

end

theorem areRegular_iff {terms : List Term} :
    areRegular terms ↔ ∀ term ∈ terms, term.isRegular := by
  induction terms with
  | nil => simp [areRegular]
  | cons term rest ih => simp [areRegular, ih]

/-- The term of a binding is regular if its members are, and it is a binding. -/
theorem isRegular_of_ofBinding {kind : Introducer} {name : String} {span : Span}
    {members : List Term} {term : Term} (h : ofBinding kind name span members = .ok term)
    (hmembers : areRegular members) : term.isRegular ∧ term.isBinding := by
  rcases members with _ | ⟨member, _ | ⟨second, rest⟩⟩
  · cases h
  · have hmember : member.isRegular := areRegular_iff.mp hmembers member List.mem_cons_self
    cases kind <;> cases h <;> exact ⟨hmember, rfl⟩
  · cases h

/-- The term of a group is regular if its members are and the first of them is a binding exactly if
the group says so; it is no binding itself. -/
theorem isRegular_of_ofGroup {span : Span} {head : Term} {tail : List Term} {term : Term}
    (h : ofGroup head.isBinding span (head :: tail) = .ok term)
    (hmembers : areRegular (head :: tail)) : term.isRegular ∧ term.isBinding = false := by
  unfold ofGroup at h
  cases hbound : head.isBinding with
  | true =>
    rw [hbound, if_pos rfl] at h
    cases h
    refine ⟨?_, rfl⟩
    rw [isRegular, List.head?_cons, Option.any_some, hbound, hmembers]
    rfl
  | false =>
    rw [hbound, if_neg Bool.false_ne_true] at h
    rcases tail with _ | ⟨operand, _ | ⟨third, rest⟩⟩
    · cases h
    · cases h
      have hoperator : head.isRegular := areRegular_iff.mp hmembers head (by simp)
      have hoperand : operand.isRegular := areRegular_iff.mp hmembers operand (by simp)
      refine ⟨?_, rfl⟩
      rw [isRegular, hbound, hoperator, hoperand]
      rfl
    · cases h

theorem areRegular_of_ofForms {forms : List Form}
    (h : ∀ form ∈ forms, ∀ term, ofForm form = .ok term →
      term.isRegular ∧ term.isBinding = form.isBinding)
    {terms : List Term} (hterms : ofForms forms = .ok terms) : areRegular terms := by
  induction forms generalizing terms with
  | nil =>
    cases hterms
    rfl
  | cons form rest ih =>
    rw [ofForms] at hterms
    cases hhead : ofForm form with
    | error fault => simp [hhead] at hterms
    | ok head =>
      cases htail : ofForms rest with
      | error fault => simp [hhead, htail] at hterms
      | ok tail =>
        obtain rfl : head :: tail = terms := by simpa [hhead, htail] using hterms
        have hregular := ih (fun other hother => h other (List.mem_cons_of_mem _ hother)) htail
        rw [areRegular, (h form List.mem_cons_self head hhead).1, hregular]
        rfl

/-- **The term of a form is regular**, and a binding exactly if the form is. The second half carries
the induction: a group looks at its first form, regularity at the first term. -/
theorem isRegular_of_ofForm (form : Form) (term : Term) (h : ofForm form = .ok term) :
    term.isRegular ∧ term.isBinding = form.isBinding := by
  induction form using Form.induction generalizing term with
  | atom name =>
    cases h
    exact ⟨rfl, rfl⟩
  | group members span ih =>
    cases members with
    | nil => cases h
    | cons first rest =>
      rw [ofForm] at h
      cases hhead : ofForm first with
      | error fault => simp [hhead] at h
      | ok head =>
        cases htail : ofForms rest with
        | error fault => simp [hhead, htail] at h
        | ok tail =>
          obtain ⟨hregular, hbinding⟩ := ih first List.mem_cons_self head hhead
          have htailRegular := areRegular_of_ofForms
            (fun other hother => ih other (List.mem_cons_of_mem _ hother)) htail
          have hmembers : areRegular (head :: tail) := by
            rw [areRegular, hregular, htailRegular]
            rfl
          -- The group has asked its first form; the first term gives the same answer.
          simp only [hhead, htail, ← hbinding] at h
          exact isRegular_of_ofGroup h hmembers
  | binding kind name members span ih =>
    rw [ofForm] at h
    cases hmembers : ofForms members with
    | error fault => simp [hmembers] at h
    | ok terms =>
      simp only [hmembers] at h
      exact isRegular_of_ofBinding h (areRegular_of_ofForms ih hmembers)

end Term

/-- Whether all terms of a program are regular. -/
def Program.isRegular (program : Program) : Bool :=
  Term.areRegular program.body

theorem Program.isRegular_of_compile {source : String} {program : Program}
    (h : compile source = .ok program) : program.isRegular := by
  obtain ⟨forms, -, hterms⟩ := parse_of_compile h
  exact Term.areRegular_of_ofForms (fun form _ => Term.isRegular_of_ofForm form) hterms

end ParenLambda
