import ParenLambda.Form
import ParenLambda.Json
import ParenLambda.Term

/-!
# Trees as JSON

Forms and programs as JSON values. Every node is an object that starts with its kind.
-/

namespace ParenLambda

/-- A node of a kind with further fields. -/
def Json.node (kind : String) (fields : List (String × Json.Value)) : Json.Value :=
  .object (("kind", .text kind) :: fields)

/-- The kind of a node that an introducer starts. -/
def Introducer.kind : Introducer → String
  | .definition => "declaration"
  | .abstraction => "lambda"

mutual

/-- A form as JSON, without its span. -/
def Form.toJson : Form → Json.Value
  | .atom name => Json.node "atom" [("name", .text name)]
  | .group members _ => Json.node "group" [("children", .list (Form.toJsonAll members))]
  | .binding introducer name members _ =>
    Json.node introducer.kind [("name", .text name), ("children", .list (Form.toJsonAll members))]

/-- Forms as JSON. -/
def Form.toJsonAll : List Form → List Json.Value
  | [] => []
  | form :: rest => form.toJson :: Form.toJsonAll rest

end

mutual

/-- A term as JSON. -/
def Term.toJson : Term → Json.Value
  | .definition name value =>
    Json.node "declaration" [("name", .text name), ("value", value.toJson)]
  | .abstraction parameter body =>
    Json.node "lambda" [("param", .text parameter), ("body", body.toJson)]
  | .atom name => Json.node "atom" [("name", .text name)]
  | .sequence members => Json.node "group" [("children", .list (Term.toJsonAll members))]
  | .application operator operand =>
    Json.node "application" [("operator", operator.toJson), ("operand", operand.toJson)]

/-- Terms as JSON. -/
def Term.toJsonAll : List Term → List Json.Value
  | [] => []
  | term :: rest => term.toJson :: Term.toJsonAll rest

end

/-- The forms of a source as JSON. -/
def Json.ofForms (forms : List Form) : Json.Value :=
  .object [("items", .list (Form.toJsonAll forms))]

/-- A program as JSON. -/
def Json.ofProgram (program : Program) : Json.Value :=
  .object [("body", .list (Term.toJsonAll program.body))]

end ParenLambda
