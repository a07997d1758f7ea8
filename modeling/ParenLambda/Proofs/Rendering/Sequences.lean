import ParenLambda.Proofs.Escaping
import ParenLambda.Proofs.Evaluation.Derivation
import ParenLambda.Proofs.Rendering.Juxtaposition

/-!
# Sequences and the calls they stand for

A sequence is evaluated as a call: its first member is applied to the second, the result to the third,
and so on. The backends write its members back to back, and the question is whether what they write is
the text of that call.

It is if each member but the first is a function, and only then; the same has to hold of the sequences
inside. Such terms are called **joined** (`ParenLambda.Term.isJoined`). A sequence with a name behind a
function, as in `((λ y k) z)`, has no reading at all (`ParenLambda.Program.sequences_misread`), and one
with a sequence behind a function is read, but as another call: `((λ x x) ((λ y y) (λ z z)))` as if the
inner parentheses were not there.
-/

namespace ParenLambda

/-! ### The calls that sequences stand for -/

namespace Term

mutual

/-- **A term with the calls that its sequences stand for.** -/
def applied : Term → Term
  | atom name => atom name
  | definition name value => definition name value.applied
  | abstraction parameter body => abstraction parameter body.applied
  | application operator operand => application operator.applied operand.applied
  | sequence [] => sequence []
  | sequence (first :: rest) => spine first.applied (appliedAll rest)

/-- A list of terms with the calls that their sequences stand for. -/
def appliedAll : List Term → List Term
  | [] => []
  | term :: rest => term.applied :: appliedAll rest

end

mutual

/-- **Whether a term is joined**: in every sequence in it, each member but the first is a function. -/
def isJoined : Term → Bool
  | atom _ => true
  | definition _ value => value.isJoined
  | abstraction _ body => body.isJoined
  | application operator operand => operator.isJoined && operand.isJoined
  | sequence [] => true
  | sequence (first :: rest) => first.isJoined && areJoined rest

/-- Whether all terms of a list are joined, and functions. -/
def areJoined : List Term → Bool
  | [] => true
  | term :: rest => (term.applied.isFunction && term.isJoined) && areJoined rest

end

theorem appliedAll_eq (terms : List Term) : appliedAll terms = terms.map applied := by
  induction terms with
  | nil => rfl
  | cons term rest ih => rw [appliedAll, ih, List.map_cons]

theorem areJoined_iff {terms : List Term} :
    areJoined terms ↔ ∀ term ∈ terms, term.applied.isFunction ∧ term.isJoined := by
  induction terms with
  | nil => simp [areJoined]
  | cons term rest ih => simp [areJoined, ih]

@[simp] theorem isFunction_rename (f : String → String) (term : Term) :
    (term.rename f).isFunction = term.isFunction := by
  cases term <;> rfl

theorem rename_spine (f : String → String) (operator : Term) (operands : List Term) :
    (spine operator operands).rename f = spine (operator.rename f) (operands.map (rename f)) := by
  induction operands generalizing operator with
  | nil => rfl
  | cons operand rest ih => exact ih (.application operator operand)

end Term

/-! ### Evaluation -/

namespace Computation

variable {globals scope : Scope} {value : Value}

/-- A call of several operands calls its operator with one after the other. By induction on the
operands: the operator of the innermost call comes first on both sides. -/
theorem ends_spine_iff {operator : Term} {operands : List Term} :
    Ends globals (.ofTerm scope (.spine operator operands)) value ↔
      ∃ function, Ends globals (.ofTerm scope operator) function ∧
        Ends globals (.ofCalls scope function operands) value := by
  induction operands generalizing operator with
  | nil =>
    constructor
    · exact fun h => ⟨value, h, .done⟩
    · rintro ⟨function, hfunction, hcalls⟩
      cases hcalls
      exact hfunction
  | cons operand rest ih =>
    rw [Term.spine, List.foldl_cons]
    refine ih.trans ⟨?_, ?_⟩
    · rintro ⟨result, hresult, hrest⟩
      cases hresult with
      | application hfunction hargument hcall =>
        exact ⟨_, hfunction, .next hargument hcall hrest⟩
    · rintro ⟨function, hfunction, hcalls⟩
      cases hcalls with
      | next hargument hcall hrest => exact ⟨_, .application hfunction hargument hcall, hrest⟩

/-- **A sequence has the value of the call that it stands for.** -/
theorem ends_sequence_iff {first : Term} {rest : List Term} :
    Ends globals (.ofTerm scope (.sequence (first :: rest))) value ↔
      Ends globals (.ofTerm scope (.spine first rest)) value := by
  rw [ends_spine_iff]
  constructor
  · intro h
    cases h with
    | sequence hfunction hcalls => exact ⟨_, hfunction, hcalls⟩
  · rintro ⟨function, hfunction, hcalls⟩
    exact .sequence hfunction hcalls

/-- A term has a value exactly if some bound on the depth is enough for it. -/
theorem ends_ofTerm_iff {term : Term} :
    Ends globals (.ofTerm scope term) value ↔
      ∃ depth, term.eval globals depth scope = .ok value := by
  constructor
  · intro h
    obtain ⟨least, hleast⟩ := h.within
    exact ⟨least, hleast least (Nat.le_refl least)⟩
  · rintro ⟨depth, hdepth⟩
    exact ends_of_within hdepth

end Computation

/-! ### Tables of a dialect -/

namespace Dialect

open Backend

/-- **A table writes in a dialect**: functions and calls as the dialect has them, with names escaped, and
sequences back to back. -/
structure Governs (dialect : Dialect) (rules : Rules Unit) : Prop where
  /-- Names are escaped. -/
  atom : ∀ name bound, (rules.atom name bound ()).1 = escape dialect.reserved name
  /-- Functions have a heading. -/
  abstraction : ∀ parameter body, (rules.abstraction parameter body ()).1.toList =
    '(' :: (dialect.heading (escape dialect.reserved parameter) ++ body.toList ++ [')'])
  /-- Operands are put into parentheses. -/
  application : ∀ operator operand, (rules.application operator operand ()).1.toList =
    dialect.operator operator.toList ++ '(' :: (operand.toList ++ [')'])
  /-- Sequences stand back to back. -/
  sequence : ∀ members, (rules.sequence members ()).1 = String.join members
  /-- No escaped name is reserved. -/
  unscored : Unscored dialect.reserved

/-- The characters of the text of a term. -/
def chars (rules : Rules Unit) (scope : List String) (term : Term) : List Char :=
  (rules.text scope term ()).1.toList

/-- **What the text of a term should be read as**: the calls that its sequences stand for, with names
escaped. -/
def reading (dialect : Dialect) (term : Term) : Term :=
  term.applied.rename (escape dialect.reserved)

/-- **The terms that a dialect can write**: names are names of the dialect when escaped, there are no
definitions, and a sequence starts with a function. -/
inductive Writable (dialect : Dialect) : Term → Prop
  /-- A name. -/
  | atom {name : String} (hname : dialect.IsName (escape dialect.reserved name)) :
      Writable dialect (.atom name)
  /-- A function. -/
  | abstraction {parameter : String} {body : Term}
      (hparameter : dialect.IsName (escape dialect.reserved parameter))
      (hbody : Writable dialect body) : Writable dialect (.abstraction parameter body)
  /-- A call. -/
  | application {operator operand : Term} (hoperator : Writable dialect operator)
      (hoperand : Writable dialect operand) : Writable dialect (.application operator operand)
  /-- A sequence. -/
  | sequence {parameter : String} {body : Term} {rest : List Term}
      (hfirst : Writable dialect (.abstraction parameter body))
      (hrest : ∀ member ∈ rest, Writable dialect member) :
      Writable dialect (.sequence (.abstraction parameter body :: rest))

section Readings

variable (dialect : Dialect)

theorem reading_sequence (first : Term) (rest : List Term) :
    dialect.reading (.sequence (first :: rest)) =
      .spine (dialect.reading first) (rest.map dialect.reading) := by
  rw [reading, Term.applied, Term.rename_spine, Term.appliedAll_eq, List.map_map]
  rfl

@[simp] theorem isFunction_reading (term : Term) :
    (dialect.reading term).isFunction = term.applied.isFunction :=
  Term.isFunction_rename _ _

end Readings

variable {dialect : Dialect} {rules : Rules Unit} {term : Term} {scope : List String}

/-! ### The texts of a table -/

section Texts

variable (hrules : dialect.Governs rules) (scope)

include hrules

theorem Governs.chars_atom (name : String) :
    chars rules scope (.atom name) = (escape dialect.reserved name).toList := by
  rw [chars, Rules.text, hrules.atom]

theorem Governs.chars_abstraction (parameter : String) (body : Term) :
    chars rules scope (.abstraction parameter body) =
      '(' :: (dialect.heading (escape dialect.reserved parameter) ++
        chars rules (parameter :: scope) body ++ [')']) := by
  rw [chars, Rules.text_abstraction, hrules.abstraction]
  rfl

theorem Governs.chars_application (operator operand : Term) :
    chars rules scope (.application operator operand) =
      dialect.operator (chars rules scope operator) ++
        '(' :: (chars rules scope operand ++ [')']) := by
  rw [chars, Rules.text_application, hrules.application]
  rfl

theorem Governs.chars_sequence (first : Term) (rest : List Term) :
    chars rules scope (.sequence (first :: rest)) =
      chars rules scope first ++ rest.flatMap (chars rules scope) := by
  have htexts : ∀ members, (rules.texts scope members ()).1 =
      members.map fun member => (rules.text scope member ()).1 := by
    intro members
    induction members with
    | nil => rfl
    | cons member rest ih => rw [Rules.texts_cons, List.map_cons, ← ih]
  rw [chars, Rules.text_sequence, hrules.sequence, htexts, String.toList_join, List.flatMap_map]
  rfl

end Texts

theorem Writable.balanced (h : dialect.Writable term) (hrules : dialect.Governs rules) :
    Nesting.Balanced Text.nesting (chars rules scope term) := by
  induction h generalizing scope with
  | atom hname =>
    rw [hrules.chars_atom]
    exact Nesting.balanced_of_forall hname.nesting
  | abstraction hparameter _ ih =>
    rw [hrules.chars_abstraction]
    exact ((balanced_heading hparameter).append ih).enclose rfl rfl
  | application _ _ ihOperator ihOperand =>
    rw [hrules.chars_application]
    exact (balanced_operator ihOperator).append (ihOperand.enclose rfl rfl)
  | @sequence parameter body rest _ _ ihFirst ihRest =>
    rw [hrules.chars_sequence]
    exact ihFirst.append (Nesting.balanced_flatMap fun member hmember => ihRest member hmember)

theorem Writable.letters_pos (h : dialect.Writable term) (hrules : dialect.Governs rules) :
    0 < Text.letters (chars rules scope term) := by
  induction h generalizing scope with
  | atom hname =>
    rw [hrules.chars_atom]
    exact hname.letters_pos
  | abstraction hparameter _ ih =>
    rw [hrules.chars_abstraction, Text.letters_group, Text.letters_append]
    exact Nat.add_pos_right _ ih
  | application _ _ ihOperator _ =>
    rw [hrules.chars_application, Text.letters_append, letters_operator]
    exact Nat.add_pos_left ihOperator _
  | sequence _ _ ihFirst _ =>
    rw [hrules.chars_sequence, Text.letters_append]
    exact Nat.add_pos_left ihFirst _

theorem Writable.behindName (h : dialect.Writable term) (hrules : dialect.Governs rules) :
    Text.behindName (chars rules scope term) = none ∨
      Text.behindName (chars rules scope term) = some '(' := by
  induction h generalizing scope with
  | atom hname =>
    rw [hrules.chars_atom]
    exact Or.inl (Text.behindName_of_forall hname.parts)
  | abstraction _ _ _ =>
    rw [hrules.chars_abstraction]
    exact Or.inr rfl
  | application _ _ ihOperator _ =>
    rw [hrules.chars_application]
    exact Or.inr (behindName_call ihOperator _)
  | sequence _ _ _ _ =>
    rw [hrules.chars_sequence, hrules.chars_abstraction]
    exact Or.inr rfl

/-! ### The readings of a text -/

theorem Writable.ending (h : dialect.Writable term) (hrules : dialect.Governs rules) :
    dialect.Ending (dialect.reading term).isFunction (chars rules scope term) := by
  induction h generalizing scope with
  | @atom name hname =>
    rw [hrules.chars_atom]
    obtain ⟨front, c, hlast⟩ : ∃ front c, (escape dialect.reserved name).toList = front ++ [c] :=
      ⟨_, _, (List.dropLast_concat_getLast hname.ne_nil).symm⟩
    rw [hlast]
    exact .name (Text.ne_of_isIdentifierPart (hname.parts c (by simp [hlast]))).2
  | abstraction hparameter hbody _ =>
    rw [hrules.chars_abstraction]
    exact .function hparameter (hbody.balanced hrules)
  | application hoperator hoperand _ _ =>
    rw [hrules.chars_application]
    refine .group (hoperand.balanced hrules) ?_
    have hpos : 0 < Text.letters (chars rules scope _) := hoperator.letters_pos hrules
    rw [Text.letters_append, Text.letters_group, letters_operator]
    omega
  | @sequence parameter body rest hfirst hrest ihFirst ihRest =>
    rw [hrules.chars_sequence, reading_sequence]
    -- With one member the sequence ends as that member; with more, the last one decides.
    rcases List.eq_nil_or_concat rest with rfl | ⟨init, last, rfl⟩
    · rw [List.flatMap_nil, List.append_nil]
      exact ihFirst
    · have hpos : 0 < Text.letters (chars rules scope _) := hfirst.letters_pos hrules
      simp only [List.concat_eq_append, List.map_append, List.map_cons, List.map_nil,
        List.flatMap_append, List.flatMap_cons, List.flatMap_nil, List.append_nil]
      rw [Term.isFunction_spine_concat, ← List.append_assoc]
      refine (ihRest last (by simp)).behind ?_
      rw [Text.letters_append]
      exact Nat.add_pos_left hpos _

theorem Writable.letters (h : dialect.Writable term) (hrules : dialect.Governs rules)
    {text : List Char} (htext : dialect.Spells (dialect.reading term) text) :
    Text.letters text = Text.letters (chars rules scope term) := by
  induction h generalizing scope text with
  | atom hname =>
    rw [hrules.chars_atom]
    cases htext
    rfl
  | abstraction hparameter hbody ih =>
    obtain ⟨inner, hinner, hletters⟩ := Spells.letters_function htext
    rw [hrules.chars_abstraction, Text.letters_group, hletters, Text.letters_append,
      Text.letters_append, ih hinner]
  | application hoperator hoperand ihOperator ihOperand =>
    obtain ⟨left, right, hleft, hright, hletters⟩ := Spells.letters_application htext
    rw [hrules.chars_application, Text.letters_append, Text.letters_group, letters_operator,
      hletters, ihOperator hleft, ihOperand hright]
  | sequence hfirst hrest ihFirst ihRest =>
    rw [reading_sequence] at htext
    rw [hrules.chars_sequence, Text.letters_append]
    exact Spells.letters_spine (fun text hfunction => ihFirst hfunction)
      (fun member hmember text hmemberText => ihRest member hmember hmemberText) htext

/-- **What a table writes imitates what it should be read as.** -/
theorem Writable.imitates (h : dialect.Writable term) (hrules : dialect.Governs rules) :
    dialect.Imitates (dialect.reading term) (chars rules scope term) :=
  ⟨h.ending hrules, fun _ htext => h.letters hrules htext⟩

/-- **What a table writes is read as it should be exactly if the term is joined.** -/
theorem Writable.spells_iff (h : dialect.Writable term) (hrules : dialect.Governs rules) :
    dialect.Spells (dialect.reading term) (chars rules scope term) ↔ term.isJoined := by
  induction h generalizing scope with
  | atom hname =>
    rw [hrules.chars_atom]
    exact iff_of_true (.name hname) rfl
  | abstraction hparameter _ ih =>
    rw [hrules.chars_abstraction]
    exact (spells_function_iff hparameter).trans ih
  | application _ hoperand ihOperator ihOperand =>
    rw [hrules.chars_application, Term.isJoined, Bool.and_eq_true, ← ihOperator, ← ihOperand]
    exact spells_call_iff (hoperand.balanced hrules) (hoperand.behindName hrules)
  | sequence hfirst hrest ihFirst ihRest =>
    rw [hrules.chars_sequence, reading_sequence,
      spells_spine_iff fun member hmember => (hrest member hmember).imitates hrules,
      Term.isJoined, Bool.and_eq_true, ihFirst, Term.areJoined_iff]
    refine and_congr Iff.rfl (forall₂_congr fun member hmember => ?_)
    rw [isFunction_reading, ihRest member hmember]

end Dialect

end ParenLambda
