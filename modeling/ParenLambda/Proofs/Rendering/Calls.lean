import ParenLambda.Proofs.Identifiers
import ParenLambda.Proofs.Nesting

/-!
# Texts of functions and calls

The targets write functions and calls in much the same way: a name stands for itself, a function is its
parameter and its body between parentheses, and the operand of a call comes in parentheses behind the
operator. What differs is a **dialect** (`ParenLambda.Dialect`): what stands around the parameter, and
whether the operator is put into parentheses too.

The texts of a dialect are given with the terms that they are read as (`ParenLambda.Dialect.Spells`). A
function may be an operand without parentheses of its own, so that one term can have several texts; but
a text has one term at most (`ParenLambda.Dialect.Spells.unique`). Two observations are behind this. The
last parenthesis of a text closes one group only, so a call is cut in one way. And whether that group
holds a function or another expression shows in its first characters: behind the first name of an
expression comes a parenthesis or nothing, and behind that of a function a space.
-/

namespace ParenLambda

namespace Text

/-- What a character counts for as a parenthesis. -/
def nesting (c : Char) : Int :=
  if c = '(' then 1 else if c = ')' then -1 else 0

theorem nesting_of_ne {c : Char} (h : c ≠ '(' ∧ c ≠ ')') : nesting c = 0 := by
  rw [nesting, if_neg h.1, if_neg h.2]

theorem ne_of_isIdentifierPart {c : Char} (h : isIdentifierPart c) : c ≠ '(' ∧ c ≠ ')' := by
  constructor <;>
  · rintro rfl
    exact absurd h (by decide)

/-- **What stands behind the name that a text starts with**, if there is more. -/
def behindName (text : List Char) : Option Char :=
  (text.dropWhile isIdentifierPart).head?

theorem behindName_append (left right : List Char) :
    behindName (left ++ right) = (behindName left).or (behindName right) := by
  rw [behindName, behindName, behindName, List.dropWhile_append]
  cases hleft : left.dropWhile isIdentifierPart with
  | nil => rfl
  | cons first rest => rfl

theorem behindName_of_forall {text : List Char} (h : ∀ c ∈ text, isIdentifierPart c) :
    behindName text = none := by
  have hdrop : (text ++ []).dropWhile isIdentifierPart = [] := List.dropWhile_append_of_pos h
  rw [behindName, ← List.append_nil text, hdrop]
  rfl

theorem behindName_append_opening {left : List Char}
    (h : behindName left = none ∨ behindName left = some '(') (rest : List Char) :
    behindName (left ++ '(' :: rest) = some '(' := by
  rw [behindName_append]
  rcases h with h | h <;> rw [h] <;> rfl

end Text

/-! ### Dialects -/

/-- **How a target writes functions and calls.** -/
structure Dialect where
  /-- The words that are no names. -/
  reserved : List String
  /-- What stands before the parameter of a function. -/
  before : List Char
  /-- What stands behind the parameter of a function, before its body. -/
  behind : List Char
  /-- What stands between operator and operand, if the operator is put into parentheses. -/
  gap? : Option (List Char)
  /-- A space follows the first name of a function, which is its parameter or a word before it. -/
  space : (Text.behindName before).or (Text.behindName behind) = some ' ' := by decide
  /-- The parameter of a function can be told from what stands behind it. -/
  stops : behind.head?.any (!Text.isIdentifierPart ·) := by decide
  /-- There are no parentheses around the parameter but those of the function. -/
  plain : (before ++ behind).all (!Fragment.isParenthesis ·) := by decide
  /-- Nothing but spaces comes between operator and operand. -/
  blank : (gap?.getD []).all (· == ' ') := by decide

namespace Dialect

variable (dialect : Dialect)

/-- **The names of a dialect**: the identifiers that it does not reserve. -/
structure IsName (name : String) : Prop where
  /-- A name is an identifier. -/
  identifier : Name.isIdentifier name
  /-- A name is no reserved word. -/
  not_reserved : name ∉ dialect.reserved

/-- What stands before the body of a function. -/
def heading (parameter : String) : List Char :=
  dialect.before ++ (parameter.toList ++ dialect.behind)

/-- An operator, with all that stands before the operand. -/
def operator (text : List Char) : List Char :=
  match dialect.gap? with
  | none => text
  | some gap => '(' :: (text ++ ')' :: gap)

/-- **The terms that texts are read as.** The operand of a call is any expression, or a function without
parentheses of its own; then the operator has none either. -/
inductive Spells : Term → List Char → Prop
  /-- A name. -/
  | name {name : String} (hname : dialect.IsName name) : Spells (.atom name) name.toList
  /-- A function. -/
  | function {parameter : String} {body : Term} {text : List Char}
      (hparameter : dialect.IsName parameter) (hbody : Spells body text) :
      Spells (.abstraction parameter body) ('(' :: (dialect.heading parameter ++ text ++ [')']))
  /-- A call. -/
  | call {operator operand : Term} {left right : List Char} (hoperator : Spells operator left)
      (hoperand : Spells operand right) :
      Spells (.application operator operand) (dialect.operator left ++ '(' :: (right ++ [')']))
  /-- A call with a function as its operand. -/
  | callFunction {operator body : Term} {parameter : String} {left right : List Char}
      (hoperator : Spells operator left) (hparameter : dialect.IsName parameter)
      (hbody : Spells body right) :
      Spells (.application operator (.abstraction parameter body))
        (left ++ '(' :: (dialect.heading parameter ++ right ++ [')']))

variable {dialect} {name parameter : String} {term : Term} {text : List Char}

/-! ### Names and headings -/

theorem IsName.parts (h : dialect.IsName name) : ∀ c ∈ name.toList, Text.isIdentifierPart c :=
  (Name.isIdentifier_iff.mp h.identifier).2

theorem IsName.ne_nil (h : dialect.IsName name) : name.toList ≠ [] := by
  obtain ⟨first, rest, hname, -⟩ := (Name.isIdentifier_iff.mp h.identifier).1
  rw [hname]
  exact List.cons_ne_nil first rest

theorem IsName.nesting (h : dialect.IsName name) : ∀ c ∈ name.toList, Text.nesting c = 0 :=
  fun c hc => Text.nesting_of_ne (Text.ne_of_isIdentifierPart (h.parts c hc))

/-- A name has no parenthesis in it. -/
theorem IsName.ne_append (h : dialect.IsName name) (left right : List Char) :
    name.toList ≠ left ++ '(' :: right := by
  intro heq
  exact (Text.ne_of_isIdentifierPart (h.parts '(' (by simp [heq]))).1 rfl

/-- A heading has no parentheses, whatever characters of identifiers its parameter is made of. -/
theorem balanced_heading_of_parts (h : ∀ c ∈ parameter.toList, Text.isIdentifierPart c) :
    Nesting.Balanced Text.nesting (dialect.heading parameter) := by
  have hplain : ∀ c ∈ dialect.before ++ dialect.behind, Text.nesting c = 0 := by
    intro c hc
    have hc := List.all_eq_true.mp dialect.plain c hc
    simp only [Fragment.isParenthesis, Bool.not_eq_true', Bool.or_eq_false_iff] at hc
    exact Text.nesting_of_ne ⟨ne_of_beq_false hc.1, ne_of_beq_false hc.2⟩
  refine Nesting.balanced_of_forall fun c hc => ?_
  rcases List.mem_append.mp hc with hc | hc
  · exact hplain c (List.mem_append_left _ hc)
  · rcases List.mem_append.mp hc with hc | hc
    · exact Text.nesting_of_ne (Text.ne_of_isIdentifierPart (h c hc))
    · exact hplain c (List.mem_append_right _ hc)

theorem balanced_heading (h : dialect.IsName parameter) :
    Nesting.Balanced Text.nesting (dialect.heading parameter) :=
  balanced_heading_of_parts h.parts

/-- The gap behind an operator holds nothing but spaces. -/
theorem eq_space_of_mem_gap {gap : List Char} (hgap : dialect.gap? = some gap) {c : Char}
    (hc : c ∈ gap) : c = ' ' := by
  have hblank := dialect.blank
  rw [hgap, Option.getD_some] at hblank
  exact eq_of_beq (List.all_eq_true.mp hblank c hc)

theorem balanced_operator (h : Nesting.Balanced Text.nesting text) :
    Nesting.Balanced Text.nesting (dialect.operator text) := by
  rw [operator]
  cases hgap : dialect.gap? with
  | none => exact h
  | some gap =>
    have hblank : Nesting.Balanced Text.nesting gap := by
      refine Nesting.balanced_of_forall fun c hc => ?_
      rw [eq_space_of_mem_gap hgap hc]
      rfl
    have hgroup : Nesting.Balanced Text.nesting ('(' :: (text ++ [')'])) := h.enclose rfl rfl
    simpa using hgroup.append hblank

/-- A space follows the first name of a heading. -/
theorem behindName_heading (h : dialect.IsName parameter) (rest : List Char) :
    Text.behindName (dialect.heading parameter ++ rest) = some ' ' := by
  rw [heading, Text.behindName_append, Text.behindName_append, Text.behindName_append,
    Text.behindName_of_forall h.parts, Option.none_or, dialect.space, Option.some_or]

theorem behindName_call (h : Text.behindName text = none ∨ Text.behindName text = some '(')
    (rest : List Char) : Text.behindName (dialect.operator text ++ '(' :: rest) = some '(' := by
  refine Text.behindName_append_opening ?_ rest
  rw [operator]
  cases dialect.gap? with
  | none => exact h
  | some gap => exact Or.inr rfl

/-- The first character behind a parameter belongs to no name. -/
theorem exists_behind (dialect : Dialect) :
    ∃ c behind, dialect.behind = c :: behind ∧ Text.isIdentifierPart c = false := by
  have hstops := dialect.stops
  cases hbehind : dialect.behind with
  | nil => simp [hbehind] at hstops
  | cons c behind => exact ⟨c, behind, rfl, by simpa [hbehind] using hstops⟩

/-- **A heading is read in one way.** -/
theorem heading_unique {parameter' : String} {rest rest' : List Char}
    (h : dialect.IsName parameter) (h' : dialect.IsName parameter')
    (heq : dialect.heading parameter ++ rest = dialect.heading parameter' ++ rest') :
    parameter = parameter' ∧ rest = rest' := by
  obtain ⟨c, behind, hbehind, hc⟩ := dialect.exists_behind
  have htake : ∀ {name : String} {more : List Char}, dialect.IsName name →
      (name.toList ++ c :: more).takeWhile Text.isIdentifierPart = name.toList := by
    intro name more hname
    rw [List.takeWhile_append_of_pos hname.parts, List.takeWhile_cons_of_neg (by simp [hc]),
      List.append_nil]
  simp only [heading, List.append_assoc, hbehind, List.cons_append] at heq
  have heq := List.append_cancel_left heq
  -- What stands behind the parameter is no part of a name, so the parameter is all of the first name.
  have hnames : parameter.toList = parameter'.toList := by
    have hwhile := congrArg (List.takeWhile Text.isIdentifierPart) heq
    rwa [htake h, htake h'] at hwhile
  rw [hnames] at heq
  have hrest := (List.cons.inj (List.append_cancel_left heq)).2
  exact ⟨String.toList_injective hnames, List.append_cancel_left hrest⟩

/-! ### Texts -/

theorem Spells.balanced (h : dialect.Spells term text) : Nesting.Balanced Text.nesting text := by
  induction h with
  | name hname => exact Nesting.balanced_of_forall hname.nesting
  | function hparameter _ ih =>
    exact ((balanced_heading hparameter).append ih).enclose rfl rfl
  | call _ _ ihOperator ihOperand =>
    exact (balanced_operator ihOperator).append (ihOperand.enclose rfl rfl)
  | callFunction _ hparameter _ ihOperator ihBody =>
    exact ihOperator.append (((balanced_heading hparameter).append ihBody).enclose rfl rfl)

theorem Spells.balanced_function (h : dialect.Spells term text)
    (hparameter : dialect.IsName parameter) :
    Nesting.Balanced Text.nesting (dialect.heading parameter ++ text) :=
  (balanced_heading hparameter).append h.balanced

/-- **Behind the first name of an expression** comes a parenthesis or nothing. -/
theorem Spells.behindName (h : dialect.Spells term text) :
    Text.behindName text = none ∨ Text.behindName text = some '(' := by
  induction h with
  | name hname => exact Or.inl (Text.behindName_of_forall hname.parts)
  | function _ _ _ => exact Or.inr rfl
  | call _ _ ihOperator _ => exact Or.inr (behindName_call ihOperator _)
  | callFunction _ _ _ ihOperator _ => exact Or.inr (Text.behindName_append_opening ihOperator _)

theorem Spells.ne_heading (h : dialect.Spells term text) (hparameter : dialect.IsName parameter)
    (rest : List Char) : text ≠ dialect.heading parameter ++ rest := by
  rintro rfl
  have hspace := behindName_heading hparameter rest
  rcases h.behindName with hname | hname <;> rw [hname] at hspace <;> cases hspace

theorem Spells.ne_nil (h : dialect.Spells term text) : text ≠ [] := by
  cases h with
  | name hname => exact hname.ne_nil
  | _ => simp

/-- **A call is cut in one way**, at the parenthesis that the last one closes. -/
theorem call_unique (left left' : List Char) {right right' : List Char}
    (hright : Nesting.Balanced Text.nesting right) (hright' : Nesting.Balanced Text.nesting right')
    (h : left ++ '(' :: (right ++ [')']) = left' ++ '(' :: (right' ++ [')'])) :
    left = left' ∧ right = right' :=
  Nesting.last_group_unique rfl rfl hright hright' h

theorem operator_injective {left left' : List Char}
    (h : dialect.operator left = dialect.operator left') : left = left' := by
  rw [operator, operator] at h
  cases hgap : dialect.gap? with
  | none => simpa [hgap] using h
  | some gap =>
    simp only [hgap] at h
    exact List.append_cancel_right (List.cons.inj h).2

/-- **A text is read as one term at most.** By induction on the term, and on how the text is made for
the other one: the last group of the text, if there is one, tells the cases apart. -/
theorem Spells.unique {term' : Term} (h : dialect.Spells term text)
    (h' : dialect.Spells term' text) : term = term' := by
  generalize htext : text = text' at h'
  induction h generalizing term' text' with
  | @name name hname =>
    cases h' with
    | name hname' => rw [String.toList_injective htext]
    | function _ _ => exact absurd htext (hname.ne_append [] _)
    | call _ _ => exact absurd htext (hname.ne_append _ _)
    | callFunction _ _ _ => exact absurd htext (hname.ne_append _ _)
  | @function parameter body text hparameter hbody ih =>
    have hgroup := hbody.balanced_function hparameter
    cases h' with
    | name hname' => exact absurd htext.symm (hname'.ne_append [] _)
    | @function parameter' body' text' hparameter' hbody' =>
      have hinner := List.append_cancel_right (List.cons.inj htext).2
      obtain ⟨rfl, rfl⟩ := heading_unique hparameter hparameter' hinner
      rw [ih _ rfl hbody']
    | call hoperator' hoperand' =>
      -- The operand would be a function without its parentheses.
      obtain ⟨-, hright⟩ := call_unique [] _ hgroup hoperand'.balanced htext
      exact absurd hright.symm (hoperand'.ne_heading hparameter _)
    | callFunction hoperator' hparameter' hbody' =>
      -- Nothing would be left for the operator.
      obtain ⟨hleft, -⟩ := call_unique [] _ hgroup (hbody'.balanced_function hparameter') htext
      exact absurd hleft.symm hoperator'.ne_nil
  | @call operator operand left right hoperator hoperand ihOperator ihOperand =>
    cases h' with
    | name hname' => exact absurd htext.symm (hname'.ne_append _ _)
    | function hparameter' hbody' =>
      have hgroup' := hbody'.balanced_function hparameter'
      obtain ⟨-, hright⟩ := call_unique _ [] hoperand.balanced hgroup' htext
      exact absurd hright (hoperand.ne_heading hparameter' _)
    | call hoperator' hoperand' =>
      obtain ⟨hleft, hright⟩ := call_unique _ _ hoperand.balanced hoperand'.balanced htext
      rw [ihOperator _ (operator_injective hleft) hoperator', ihOperand _ hright hoperand']
    | callFunction hoperator' hparameter' hbody' =>
      have hgroup' := hbody'.balanced_function hparameter'
      obtain ⟨-, hright⟩ := call_unique _ _ hoperand.balanced hgroup' htext
      exact absurd hright (hoperand.ne_heading hparameter' _)
  | @callFunction operator body parameter left right hoperator hparameter hbody ihOperator ihBody =>
    have hgroup := hbody.balanced_function hparameter
    cases h' with
    | name hname' => exact absurd htext.symm (hname'.ne_append _ _)
    | function hparameter' hbody' =>
      obtain ⟨hleft, -⟩ := call_unique _ [] hgroup (hbody'.balanced_function hparameter') htext
      exact absurd hleft hoperator.ne_nil
    | call hoperator' hoperand' =>
      obtain ⟨-, hright⟩ := call_unique _ _ hgroup hoperand'.balanced htext
      exact absurd hright.symm (hoperand'.ne_heading hparameter _)
    | callFunction hoperator' hparameter' hbody' =>
      have hgroup' := hbody'.balanced_function hparameter'
      obtain ⟨hleft, hright⟩ := call_unique _ _ hgroup hgroup' htext
      obtain ⟨rfl, hbodies⟩ := heading_unique hparameter hparameter' hright
      rw [ihOperator _ hleft hoperator', ihBody _ hbodies hbody']

end Dialect

end ParenLambda
