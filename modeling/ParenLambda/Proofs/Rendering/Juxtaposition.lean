import ParenLambda.Proofs.Rendering.Calls

/-!
# Expressions back to back

Two texts back to back, that of an operator and that of an operand, are the text of a call if the
operand is a function, since a function comes with the parentheses of a call. This file shows that
they are the text of that call in no other case (`ParenLambda.Dialect.spells_juxtaposed_iff`).

All depends on the last group of the second text. If there is none, the text ends in a name, and no
call does. If the group is only a part of the second text, it holds fewer letters than the operand, so
it is not the operand that is read. It remains that the second text is one group, and it is one
without being a function only if it is not an expression at all.
-/

namespace ParenLambda

/-- The number of characters of a text that belong to names and words. -/
def Text.letters (text : List Char) : Nat :=
  text.countP isIdentifierPart

namespace Text

@[simp] theorem letters_append (left right : List Char) :
    letters (left ++ right) = letters left + letters right :=
  List.countP_append

theorem letters_group (text : List Char) : letters ('(' :: (text ++ [')'])) = letters text := by
  have hopening : isIdentifierPart '(' = false := by decide
  have hclosing : isIdentifierPart ')' = false := by decide
  simp [letters, hopening, hclosing]

end Text

/-- Whether a term is a function. -/
def Term.isFunction : Term → Bool
  | abstraction _ _ => true
  | _ => false

/-- An operator applied to operands, one after the other. -/
def Term.spine (operator : Term) (operands : List Term) : Term :=
  operands.foldl application operator

/-- A call of at least one operand is no function. -/
theorem Term.isFunction_spine_concat (operator : Term) (operands : List Term) (operand : Term) :
    (spine operator (operands ++ [operand])).isFunction = false := by
  rw [spine, List.foldl_append]
  rfl

namespace Dialect

variable {dialect : Dialect} {function argument : Term} {left right text : List Char}

theorem letters_operator (text : List Char) :
    Text.letters (dialect.operator text) = Text.letters text := by
  rw [operator]
  cases hgap : dialect.gap? with
  | none => rfl
  | some gap =>
    have hblank : Text.letters gap = 0 := by
      rw [Text.letters, List.countP_eq_zero]
      intro c hc
      rw [eq_space_of_mem_gap hgap hc]
      decide
    have hsplit : '(' :: (text ++ ')' :: gap) = '(' :: (text ++ [')']) ++ gap := by
      simp
    simp only
    rw [hsplit, Text.letters_append, Text.letters_group, hblank, Nat.add_zero]

theorem IsName.letters_pos {name : String} (h : dialect.IsName name) :
    0 < Text.letters name.toList := by
  obtain ⟨first, rest, hname, -⟩ := (Name.isIdentifier_iff.mp h.identifier).1
  rw [Text.letters, List.countP_pos_iff]
  refine ⟨first, ?_, h.parts first ?_⟩ <;> simp [hname]

/-! ### How a text ends -/

variable (dialect) in
/-- **The ways in which a text can end**: with a function that is the whole text, with a name, or with a
group in which some of its letters are missing. -/
inductive Ending : Bool → List Char → Prop
  /-- The text is a function. -/
  | function {parameter : String} {text : List Char} (hparameter : dialect.IsName parameter)
      (htext : Nesting.Balanced Text.nesting text) :
      Ending true ('(' :: (dialect.heading parameter ++ text ++ [')']))
  /-- The text ends in a name. -/
  | name {front : List Char} {c : Char} (hc : c ≠ ')') : Ending false (front ++ [c])
  /-- The text ends in a group. -/
  | group {front inner : List Char} (hinner : Nesting.Balanced Text.nesting inner)
      (hletters : Text.letters inner < Text.letters (front ++ '(' :: (inner ++ [')']))) :
      Ending false (front ++ '(' :: (inner ++ [')']))

/-- A text with another one before it ends as it did, and is no function any more. -/
theorem Ending.behind {isFunction : Bool} (h : dialect.Ending isFunction right)
    (hleft : 0 < Text.letters left) : dialect.Ending false (left ++ right) := by
  cases h with
  | function hparameter htext =>
    refine .group ((balanced_heading hparameter).append htext) ?_
    rw [Text.letters_append left, Text.letters_group]
    omega
  | @name front c hc =>
    rw [← List.append_assoc]
    exact .name hc
  | @group front inner hinner hletters =>
    rw [← List.append_assoc]
    refine .group hinner ?_
    rw [List.append_assoc, Text.letters_append]
    omega

/-! ### Calls that are made of two texts -/

/-- **The text of a call**: the operand is in parentheses behind the operator, or it is a function, and
the two stand back to back. -/
theorem Spells.application_cases (h : dialect.Spells (.application function argument) text) :
    ∃ left right, dialect.Spells function left ∧ dialect.Spells argument right ∧
      (text = dialect.operator left ++ '(' :: (right ++ [')']) ∨
        (argument.isFunction ∧ text = left ++ right)) := by
  cases h with
  | @call _ _ left right hoperator hoperand =>
    exact ⟨left, right, hoperator, hoperand, Or.inl rfl⟩
  | @callFunction _ body parameter left right hoperator hparameter hbody =>
    exact ⟨left, _, hoperator, .function hparameter hbody, Or.inr ⟨rfl, rfl⟩⟩

theorem Spells.exists_heading (h : dialect.Spells argument text) (hargument : argument.isFunction) :
    ∃ parameter inner, text = '(' :: (dialect.heading parameter ++ inner ++ [')']) ∧
      dialect.IsName parameter ∧ Nesting.Balanced Text.nesting inner := by
  cases h with
  | function hparameter hbody => exact ⟨_, _, rfl, hparameter, hbody.balanced⟩
  | _ => cases hargument

variable (dialect) in
/-- **A text imitates a term**: it ends as the texts of the term do, and it has as many letters. It need
not be such a text. -/
structure Imitates (term : Term) (text : List Char) : Prop where
  /-- It ends like a text of the term. -/
  ending : dialect.Ending term.isFunction text
  /-- It has as many letters as any text of the term. -/
  letters : ∀ text', dialect.Spells term text' → Text.letters text' = Text.letters text

/-- **Two texts back to back are the text of a call** exactly if they are the texts of its operator and
its operand, and the operand is a function. -/
theorem spells_juxtaposed_iff (hargument : dialect.Imitates argument right) :
    dialect.Spells (.application function argument) (left ++ right) ↔
      dialect.Spells function left ∧ argument.isFunction ∧ dialect.Spells argument right := by
  constructor
  · intro h
    obtain ⟨front, inner, hfront, hinner, htext⟩ := h.application_cases
    have hending := hargument.ending
    have hletters := hargument.letters inner hinner
    generalize hfunction : argument.isFunction = isFunction at hending htext
    cases hending with
    | @function parameter text hparameter hbalanced =>
      -- The second text is one group with a heading, which is a function and no other expression.
      have hgroup := (balanced_heading hparameter).append hbalanced
      rcases htext with htext | ⟨-, htext⟩
      · obtain ⟨-, hright⟩ := call_unique _ _ hgroup hinner.balanced htext
        exact absurd hright.symm (hinner.ne_heading hparameter _)
      · obtain ⟨parameter', inner', rfl, hparameter', hinner'⟩ := hinner.exists_heading hfunction
        have hgroup' := (balanced_heading hparameter').append hinner'
        obtain ⟨rfl, hright⟩ := call_unique _ _ hgroup hgroup' htext
        exact ⟨hfront, rfl, hright ▸ hinner⟩
    | @name before c hc =>
      -- No call ends in a name.
      rcases htext with htext | ⟨himpossible, -⟩
      · have hlast : left ++ before ++ [c] = dialect.operator front ++ '(' :: inner ++ [')'] := by
          simpa using htext
        exact absurd (List.singleton_inj.mp (List.append_inj' hlast rfl).2) hc
      · cases himpossible
    | @group before group hgroup hless =>
      -- The last group has fewer letters than the operand.
      rcases htext with htext | ⟨himpossible, -⟩
      · rw [← List.append_assoc] at htext
        obtain ⟨-, rfl⟩ := call_unique _ _ hgroup hinner.balanced htext
        omega
      · cases himpossible
  · rintro ⟨hfunction, hisFunction, hargument⟩
    cases hargument with
    | function hparameter hbody => exact .callFunction hfunction hparameter hbody
    | _ => cases hisFunction

/-- **Any number of texts back to back.** By induction on the operands: each text that is added makes one
more call of what comes before it. -/
theorem spells_spine_iff {α : Type} {reading : α → Term} {write : α → List Char} {members : List α}
    (h : ∀ member ∈ members, dialect.Imitates (reading member) (write member)) :
    dialect.Spells (.spine function (members.map reading)) (left ++ members.flatMap write) ↔
      dialect.Spells function left ∧ ∀ member ∈ members,
        (reading member).isFunction ∧ dialect.Spells (reading member) (write member) := by
  induction members generalizing function left with
  | nil => simp [Term.spine]
  | cons member rest ih =>
    have hmember := h member List.mem_cons_self
    have hrest : ∀ other ∈ rest, dialect.Imitates (reading other) (write other) :=
      fun other hother => h other (List.mem_cons_of_mem _ hother)
    have hstep := @ih (.application function (reading member)) (left ++ write member) hrest
    rw [List.map_cons, List.flatMap_cons, ← List.append_assoc, List.forall_mem_cons]
    refine hstep.trans ?_
    rw [spells_juxtaposed_iff hmember, and_assoc, and_assoc]

/-- A text in parentheses behind an operator is the text of a call exactly if the two are texts of its
operator and its operand, provided that the one in parentheses does not look like a function. -/
theorem spells_call_iff (hbalanced : Nesting.Balanced Text.nesting right)
    (hname : Text.behindName right = none ∨ Text.behindName right = some '(') :
    dialect.Spells (.application function argument)
        (dialect.operator left ++ '(' :: (right ++ [')'])) ↔
      dialect.Spells function left ∧ dialect.Spells argument right := by
  constructor
  · intro h
    generalize htext : dialect.operator left ++ '(' :: (right ++ [')']) = text at h
    cases h with
    | call hoperator hoperand =>
      obtain ⟨hleft, rfl⟩ := call_unique _ _ hbalanced hoperand.balanced htext
      obtain rfl := operator_injective hleft
      exact ⟨hoperator, hoperand⟩
    | callFunction hoperator hparameter hbody =>
      obtain ⟨-, rfl⟩ := call_unique _ _ hbalanced (hbody.balanced_function hparameter) htext
      rw [behindName_heading hparameter] at hname
      rcases hname with hname | hname <;> cases hname
  · rintro ⟨hoperator, hoperand⟩
    exact .call hoperator hoperand

/-- A text behind a heading is the text of a function exactly if it is one of the body. -/
theorem spells_function_iff {parameter : String} {body : Term} (h : dialect.IsName parameter) :
    dialect.Spells (.abstraction parameter body)
        ('(' :: (dialect.heading parameter ++ text ++ [')'])) ↔ dialect.Spells body text := by
  constructor
  · intro hspells
    generalize htext : '(' :: (dialect.heading parameter ++ text ++ [')']) = whole at hspells
    cases hspells with
    | function hparameter hbody =>
      have hinner := List.append_cancel_right (List.cons.inj htext).2
      obtain ⟨-, rfl⟩ := heading_unique h hparameter hinner
      exact hbody
  · exact .function h

/-! ### The letters of a text -/

theorem Spells.letters_function {parameter : String} {body : Term}
    (h : dialect.Spells (.abstraction parameter body) text) :
    ∃ inner, dialect.Spells body inner ∧
      Text.letters text = Text.letters (dialect.heading parameter ++ inner) := by
  cases h with
  | @function _ _ inner hparameter hbody => exact ⟨inner, hbody, Text.letters_group _⟩

/-- Whichever way a call is written, its letters are those of its operator and its operand. -/
theorem Spells.letters_application (h : dialect.Spells (.application function argument) text) :
    ∃ left right, dialect.Spells function left ∧ dialect.Spells argument right ∧
      Text.letters text = Text.letters left + Text.letters right := by
  obtain ⟨left, right, hleft, hright, rfl | ⟨-, rfl⟩⟩ := h.application_cases
  · refine ⟨left, right, hleft, hright, ?_⟩
    rw [Text.letters_append, Text.letters_group, letters_operator]
  · exact ⟨left, right, hleft, hright, Text.letters_append left right⟩

/-- The letters of a call of any number of operands. -/
theorem Spells.letters_spine {α : Type} {reading : α → Term} {write : α → List Char}
    {members : List α} {count : Nat}
    (hfunction : ∀ text, dialect.Spells function text → Text.letters text = count)
    (h : ∀ member ∈ members, ∀ text, dialect.Spells (reading member) text →
      Text.letters text = Text.letters (write member))
    (htext : dialect.Spells (.spine function (members.map reading)) text) :
    Text.letters text = count + Text.letters (members.flatMap write) := by
  induction members generalizing function count with
  | nil => exact hfunction text htext
  | cons member rest ih =>
    have hcall : ∀ text, dialect.Spells (.application function (reading member)) text →
        Text.letters text = count + Text.letters (write member) := by
      intro text hcall
      obtain ⟨left, right, hleft, hright, hletters⟩ := hcall.letters_application
      rw [hletters, hfunction left hleft, h member List.mem_cons_self right hright]
    rw [List.flatMap_cons, Text.letters_append, ← Nat.add_assoc]
    exact ih hcall (fun other hother => h other (List.mem_cons_of_mem _ hother)) htext

end Dialect

end ParenLambda
