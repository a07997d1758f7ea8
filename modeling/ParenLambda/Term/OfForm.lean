import ParenLambda.Fault
import ParenLambda.Form
import ParenLambda.Term

/-!
# From forms to terms

The rules of arity. A binding has exactly one form after its name. A group that starts with a binding
is a sequence; any other group is an application and has exactly two members. The members of a form
become terms before the form itself, from left to right, so the fault reported is that of the
innermost form, and of the first among those.
-/

namespace ParenLambda

namespace Term

/-- The term of a binding whose members are already terms. -/
def ofBinding (kind : Introducer) (name : String) (span : Span) :
    List Term → Except Fault Term
  | [member] =>
    match kind with
    | .definition => .ok (.definition name member)
    | .abstraction => .ok (.abstraction name member)
  | members => .error (.bindingArity kind name members.length span)

/-- The term of a group whose members are already terms; `bound` says whether the first of them was
a binding. -/
def ofGroup (bound : Bool) (span : Span) (members : List Term) : Except Fault Term :=
  if bound then .ok (.sequence members)
  else
    match members with
    | [operator, operand] => .ok (.application operator operand)
    | members => .error (.applicationArity members.length span)

mutual

/-- **The term of a form**, or the first fault in it. -/
def ofForm : Form → Except Fault Term
  | .atom name => .ok (.atom name)
  | .group [] span => .error (.emptyGroup span)
  | .group (first :: rest) span =>
    match ofForm first with
    | .error fault => .error fault
    | .ok head =>
      match ofForms rest with
      | .error fault => .error fault
      | .ok tail => ofGroup first.isBinding span (head :: tail)
  | .binding kind name members span =>
    match ofForms members with
    | .error fault => .error fault
    | .ok terms => ofBinding kind name span terms

/-- The terms of a list of forms, or the first fault in them. -/
def ofForms : List Form → Except Fault (List Term)
  | [] => .ok []
  | form :: rest =>
    match ofForm form with
    | .error fault => .error fault
    | .ok head =>
      match ofForms rest with
      | .error fault => .error fault
      | .ok tail => .ok (head :: tail)

end

end Term

end ParenLambda
