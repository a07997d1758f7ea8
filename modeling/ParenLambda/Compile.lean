import ParenLambda.Form.Read
import ParenLambda.Term.Worklist
import ParenLambda.Token.Scan

/-!
# Compiling a source

A source is scanned into tokens, the tokens are read as forms, and the forms become terms. The first
step cannot fail; the second checks the parentheses and the third the arities.
-/

namespace ParenLambda

/-- The forms of a source. -/
def Form.parse (source : String) : Except Fault (List Form) :=
  Form.read (Token.scan source)

/-- **Compile a source**: its program, or the first fault in it. -/
def Program.compile (source : String) : Except Fault Program :=
  match Form.parse source with
  | .error fault => .error fault
  | .ok forms => Program.ofForms forms

end ParenLambda
