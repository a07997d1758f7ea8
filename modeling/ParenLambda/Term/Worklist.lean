import ParenLambda.Term.OfForm

/-!
# From forms to terms by a work list

Sources may nest as deeply as they like, so the terms of a program are made without recursion on the
depth of its forms. A list of tasks says what is left to do and a pile of terms holds what is done:
visiting a form queues its members and behind them the task that takes as many terms off the pile as
the form has members. The pile always holds enough of them; a run in which it did not would end
without an answer.
-/

namespace ParenLambda

/-- A number of elements from the top of a pile, bottommost first, before those in `above`, and the
pile below them. There is no answer if the pile is lower than that. -/
def unpileOnto {α : Type} : Nat → List α → List α → Option (List α × List α)
  | 0, above, pile => some (above, pile)
  | count + 1, above, top :: pile => unpileOnto count (top :: above) pile
  | _ + 1, _, [] => none

/-- A number of elements from the top of a pile, bottommost first, and the pile below them. -/
def unpile {α : Type} (count : Nat) (pile : List α) : Option (List α × List α) :=
  unpileOnto count [] pile

theorem unpileOnto_append {α : Type} (tops above pile : List α) :
    unpileOnto tops.length above (tops ++ pile) = some (tops.reverse ++ above, pile) := by
  induction tops generalizing above with
  | nil => rfl
  | cons top tops ih => simp [unpileOnto, ih]

theorem unpile_append {α : Type} (members pile : List α) :
    unpile members.length (members.reverse ++ pile) = some (members, pile) := by
  have h := unpileOnto_append members.reverse [] pile
  simpa [unpile] using h

namespace Term

/-- One thing left to do. -/
inductive Task where
  /-- Make the term of a form. -/
  | visit (form : Form)
  /-- Make a binding of the terms of its members. -/
  | bind (kind : Introducer) (name : String) (span : Span) (count : Nat)
  /-- Make a sequence or an application of the terms of a group's members. -/
  | gather (bound : Bool) (span : Span) (count : Nat)

namespace Task

/-- How many steps a task takes, at most. -/
def cost : Task → Nat
  | visit form => 2 * form.size
  | bind _ _ _ _ => 1
  | gather _ _ _ => 1

/-- How many steps a list of tasks takes, at most. -/
def costAll : List Task → Nat
  | [] => 0
  | task :: rest => task.cost + costAll rest

theorem costAll_append (left right : List Task) :
    costAll (left ++ right) = costAll left + costAll right := by
  induction left with
  | nil => simp [costAll]
  | cons task left ih => simp [costAll, ih]; omega

/-- The tasks of visiting the forms of a list one after the other. -/
def visitAll (forms : List Form) : List Task :=
  forms.map visit

theorem costAll_visitAll (forms : List Form) :
    costAll (visitAll forms) = 2 * Form.sizeAll forms := by
  induction forms with
  | nil => simp [visitAll, costAll, Form.sizeAll]
  | cons form forms ih =>
    simp only [visitAll] at ih
    simp [visitAll, costAll, cost, Form.sizeAll, ih]
    omega

end Task

/-- **Work through the tasks**, with a pile of the terms done so far. The answer is the pile once no
task is left, or the first fault. -/
def work : List Task → List Term → Option (Except Fault (List Term))
  | [], pile => some (.ok pile)
  | .visit (.atom name) :: tasks, pile => work tasks (.atom name :: pile)
  | .visit (.group [] span) :: _, _ => some (.error (.emptyGroup span))
  | .visit (.group (first :: rest) span) :: tasks, pile =>
    work (Task.visitAll (first :: rest) ++ .gather first.isBinding span (rest.length + 1) :: tasks)
      pile
  | .visit (.binding kind name members span) :: tasks, pile =>
    work (Task.visitAll members ++ .bind kind name span members.length :: tasks) pile
  | .bind kind name span count :: tasks, pile =>
    match unpile count pile with
    | none => none
    | some (members, pile) =>
      match ofBinding kind name span members with
      | .error fault => some (.error fault)
      | .ok term => work tasks (term :: pile)
  | .gather bound span count :: tasks, pile =>
    match unpile count pile with
    | none => none
    | some (members, pile) =>
      match ofGroup bound span members with
      | .error fault => some (.error fault)
      | .ok term => work tasks (term :: pile)
termination_by tasks => Task.costAll tasks
decreasing_by
  · simp [Task.costAll, Task.cost, Form.size]
  · simp only [Task.costAll, Task.costAll_append, Task.costAll_visitAll, Task.cost, Form.size]
    omega
  · simp only [Task.costAll, Task.costAll_append, Task.costAll_visitAll, Task.cost, Form.size]
    omega
  · simp [Task.costAll, Task.cost]
  · simp [Task.costAll, Task.cost]

end Term

namespace Program

/-- **The program of a list of forms**, or the first fault in them. -/
def ofForms (forms : List Form) : Except Fault Program :=
  match Term.work (Term.Task.visitAll forms) [] with
  | some (.ok pile) => .ok ⟨pile.reverse⟩
  | some (.error fault) => .error fault
  | none => .ok ⟨[]⟩

end Program

end ParenLambda
