import ParenLambda.Form
import ParenLambda.Term

/-!
# Induction over forms and terms

Forms and terms hold lists of forms and terms, so the induction that comes with the two types has a
second motive for the lists. The principles of this file have one motive only: for a form or a term
with a list of members, the claim may be assumed of every member of the list.
-/

namespace ParenLambda

/-- **Induction over terms.** -/
@[elab_as_elim]
theorem Term.induction {motive : Term → Prop}
    (atom : ∀ name, motive (.atom name))
    (definition : ∀ name value, motive value → motive (.definition name value))
    (abstraction : ∀ parameter body, motive body → motive (.abstraction parameter body))
    (application : ∀ operator operand, motive operator → motive operand →
      motive (.application operator operand))
    (sequence : ∀ members, (∀ member ∈ members, motive member) → motive (.sequence members))
    (term : Term) : motive term := by
  refine @Term.rec motive (fun members => ∀ member ∈ members, motive member) atom definition
    abstraction application sequence ?_ ?_ term
  · intro member hmember
    cases hmember
  · intro head tail hhead htail member hmember
    rcases List.mem_cons.mp hmember with rfl | hmember
    · exact hhead
    · exact htail member hmember

/-- **Induction over forms.** -/
@[elab_as_elim]
theorem Form.induction {motive : Form → Prop}
    (atom : ∀ name, motive (.atom name))
    (group : ∀ members span, (∀ member ∈ members, motive member) → motive (.group members span))
    (binding : ∀ kind name members span, (∀ member ∈ members, motive member) →
      motive (.binding kind name members span))
    (form : Form) : motive form := by
  refine @Form.rec motive (fun members => ∀ member ∈ members, motive member) atom group binding
    ?_ ?_ form
  · intro member hmember
    cases hmember
  · intro head tail hhead htail member hmember
    rcases List.mem_cons.mp hmember with rfl | hmember
    · exact hhead
    · exact htail member hmember

end ParenLambda
