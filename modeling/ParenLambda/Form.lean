import ParenLambda.Token

/-!
# Forms

The parenthesised structure of a source, before anything is said about how many members a group may
have: atoms, groups of forms, and bindings, which are groups that start with an introducer and a
name. Groups and bindings know the stretch of the source from their opening to their closing
parenthesis.
-/

namespace ParenLambda

/-- **A form**: an atom or a parenthesised list of forms. -/
inductive Form where
  /-- A word. -/
  | atom (name : String)
  /-- `( … )` -/
  | group (members : List Form) (span : Span)
  /-- `(let NAME … )` or `(λ NAME … )` -/
  | binding (kind : Introducer) (name : String) (members : List Form) (span : Span)
  deriving Repr

namespace Form

/-- Whether a form is a binding. -/
def isBinding : Form → Bool
  | binding _ _ _ _ => true
  | _ => false

/-- The forms directly inside a form. -/
def members : Form → List Form
  | atom _ => []
  | group members _ => members
  | binding _ _ members _ => members

/-- The stretch of the source of a parenthesised form. -/
def span? : Form → Option Span
  | atom _ => none
  | group _ span => some span
  | binding _ _ _ span => some span

mutual

/-- The number of forms in a form, itself included. -/
def size : Form → Nat
  | atom _ => 1
  | group members _ => 1 + sizeAll members
  | binding _ _ members _ => 1 + sizeAll members

/-- The number of forms in a list of forms, at any depth. -/
def sizeAll : List Form → Nat
  | [] => 0
  | form :: rest => form.size + sizeAll rest

end

mutual

/-- The tokens that a form is read from. -/
def flatten : Form → List Token
  | atom name => [.atom name]
  | group members _ => .opening :: (flattenAll members ++ [.closing])
  | binding kind name members _ =>
    .opening :: .introducer kind :: .atom name :: (flattenAll members ++ [.closing])

/-- The tokens that a list of forms is read from. -/
def flattenAll : List Form → List Token
  | [] => []
  | form :: rest => form.flatten ++ flattenAll rest

end

end Form

end ParenLambda
