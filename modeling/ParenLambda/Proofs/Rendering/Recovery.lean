import Mathlib.Data.List.Induction
import ParenLambda.Backend.Inlining
import ParenLambda.Proofs.Rendering.Alphabet
import ParenLambda.Proofs.Rendering.NamedSequences

/-!
# Reading texts of functions and calls

A term of names, functions and calls can be recovered from the text that a backend writes for it. The
readers of this file take a text apart **from its end**. A text that does not end with a parenthesis is
a name. If it does, that parenthesis closes one group: a text that is this group and nothing else is a
function, and what stands before the group otherwise is the operator of a call, of which the group holds
the operand. Where the group starts is found by counting parentheses backwards
(`ParenLambda.Text.lastGroup?`), so neither the names in it nor the words of the target matter for it.

One reader serves all three targets, which differ in their dialects. The names may be any words of
characters that identifiers can hold, even such as start with a digit or are a word of the target: what
tells a name from the words around it is the character behind it.
-/

namespace ParenLambda

namespace Text

/-! ### Taking texts apart -/

/-- What stands behind a given front of a text, if the text starts with it. -/
def strip? (front text : List Char) : Option (List Char) :=
  if front <+: text then some (text.drop front.length) else none

/-- What stands before a given end of a text, if the text ends with it. -/
def stripEnd? (back text : List Char) : Option (List Char) :=
  if back <:+ text then some (text.take (text.length - back.length)) else none

theorem strip?_append (front rest : List Char) : strip? front (front ++ rest) = some rest := by
  rw [strip?, if_pos (List.prefix_append front rest), List.drop_left]

theorem stripEnd?_append (rest back : List Char) : stripEnd? back (rest ++ back) = some rest := by
  rw [stripEnd?, if_pos (List.suffix_append rest back), List.length_append, Nat.add_sub_cancel,
    List.take_left]

theorem length_of_strip? {front text rest : List Char} (h : strip? front text = some rest) :
    rest.length ≤ text.length := by
  rw [strip?] at h
  split at h
  · cases h
    exact List.length_drop ▸ Nat.sub_le _ _
  · cases h

theorem length_of_stripEnd? {back text rest : List Char} (h : stripEnd? back text = some rest) :
    rest.length ≤ text.length := by
  rw [stripEnd?] at h
  split at h
  · cases h
    rw [List.length_take]
    exact Nat.min_le_right _ _
  · cases h

/-! ### The last group -/

/-- **The opening parenthesis of a group that is read backwards**: what stands before it, and what stands
between it and the end of the group, of which a part has been passed already. As many groups as `depth`
says have been entered from their ends and not left. -/
def openingOf : Int → List Char → List Char → Option (List Char × List Char)
  | _, _, [] => none
  | depth, passed, c :: before =>
    if c = '(' ∧ depth = 0 then some (before.reverse, passed)
    else openingOf (depth - nesting c) (c :: passed) before

/-- **The last group of a text**, if it ends with one: what stands before the group, and what stands in
it. -/
def lastGroup? (text : List Char) : Option (List Char × List Char) :=
  match text.reverse with
  | ')' :: before => openingOf 0 [] before
  | _ => none

theorem length_of_openingOf {depth : Int} {passed before left inner : List Char}
    (h : openingOf depth passed before = some (left, inner)) :
    left.length + inner.length < passed.length + before.length := by
  fun_induction openingOf depth passed before with
  | case1 => cases h
  | case2 depth passed c before _ =>
    cases h
    rw [List.length_reverse, List.length_cons]
    omega
  | case3 depth passed c before _ ih =>
    have hshorter := ih h
    rw [List.length_cons] at hshorter ⊢
    omega

theorem length_of_lastGroup? {text left inner : List Char}
    (h : lastGroup? text = some (left, inner)) : left.length + inner.length < text.length := by
  rw [lastGroup?] at h
  split at h
  · next before hreverse =>
    have hlength := congrArg List.length hreverse
    have hshorter := length_of_openingOf h
    simp only [List.length_reverse, List.length_cons, List.length_nil] at hlength hshorter
    omega
  · cases h

/-- Reading backwards passes a text whose ends all close what they open. -/
theorem openingOf_append {inner : List Char} {depth : Int}
    (h : ∀ back, back <:+ inner → Nesting.depth nesting back ≤ depth) (passed rest : List Char) :
    openingOf depth passed (inner.reverse ++ rest) =
      openingOf (depth - Nesting.depth nesting inner) (inner ++ passed) rest := by
  induction inner using List.reverseRecOn generalizing depth passed with
  | nil => simp
  | append_singleton front c ih =>
    have hc : nesting c ≤ depth := by
      simpa using h [c] (List.suffix_append front [c])
    have hinside : ¬(c = '(' ∧ depth = 0) := by
      rintro ⟨rfl, rfl⟩
      exact absurd hc (by decide)
    have hfront : ∀ back, back <:+ front → Nesting.depth nesting back ≤ depth - nesting c := by
      intro back hback
      have hall := h (back ++ [c]) (by
        obtain ⟨more, rfl⟩ := hback
        exact ⟨more, by simp⟩)
      simp only [Nesting.depth_append, Nesting.depth_cons, Nesting.depth_nil] at hall
      omega
    rw [List.reverse_append, List.reverse_singleton, List.singleton_append, List.cons_append,
      openingOf, if_neg hinside, ih hfront]
    simp only [Nesting.depth_append, Nesting.depth_cons, Nesting.depth_nil, List.append_assoc,
      List.singleton_append]
    congr 1
    omega

/-- **The last group of a text that ends with a group.** -/
theorem lastGroup?_append {inner : List Char} (h : Nesting.Balanced nesting inner)
    (left : List Char) : lastGroup? (left ++ '(' :: (inner ++ [')'])) = some (left, inner) := by
  have hback : ∀ back, back <:+ inner → Nesting.depth nesting back ≤ 0 := by
    rintro back ⟨front, rfl⟩
    have hfront := h.keeps front (List.prefix_append front back)
    have hdepth := h.depth_eq
    rw [Nesting.depth_append] at hdepth
    omega
  have hreverse : (left ++ '(' :: (inner ++ [')'])).reverse =
      ')' :: (inner.reverse ++ '(' :: left.reverse) := by
    simp
  rw [lastGroup?, hreverse]
  simp only
  rw [openingOf_append hback, h.depth_eq, openingOf, if_pos ⟨rfl, rfl⟩, List.reverse_reverse,
    List.append_nil]

theorem lastGroup?_of_not_mem {text : List Char} (h : ')' ∉ text) : lastGroup? text = none := by
  rw [lastGroup?]
  split
  · next before hreverse => exact absurd (List.mem_reverse.mp (by simp [hreverse])) h
  · rfl

end Text

/-- **A word**: a name of characters that identifiers may hold. -/
def Name.isWord (name : String) : Bool :=
  !name.toList.isEmpty && name.toList.all Text.isIdentifierPart

theorem Name.isWord_iff {name : String} :
    isWord name ↔ name.toList ≠ [] ∧ ∀ c ∈ name.toList, Text.isIdentifierPart c := by
  simp [isWord]

namespace Dialect

open Backend

variable (dialect : Dialect) {parameter : String} {term operator operand : Term}
  {inner left text : List Char}

/-! ### The reader -/

/-- The parameter and the body of a function, given without its parentheses. -/
def heading? (inner : List Char) : Option (String × List Char) :=
  match Text.strip? dialect.before inner with
  | none => none
  | some rest =>
    match Text.strip? dialect.behind (rest.dropWhile Text.isIdentifierPart) with
    | none => none
    | some body => some (String.ofList (rest.takeWhile Text.isIdentifierPart), body)

/-- The operator of a call, given with all that stands before the operand. -/
def operator? (left : List Char) : Option (List Char) :=
  match dialect.gap? with
  | none => some left
  | some gap =>
    match Text.strip? ['('] left with
    | none => none
    | some rest => Text.stripEnd? (')' :: gap) rest

variable {dialect}

theorem length_of_heading? {body : List Char} (h : dialect.heading? inner = some (parameter, body)) :
    body.length ≤ inner.length := by
  rw [heading?] at h
  split at h
  · cases h
  · next rest hrest =>
    split at h
    · cases h
    · next body hbody =>
      cases h
      have hdrop := (List.dropWhile_sublist (l := rest) Text.isIdentifierPart).length_le
      exact Nat.le_trans (Text.length_of_strip? hbody) (Nat.le_trans hdrop (Text.length_of_strip? hrest))

theorem length_of_operator? (h : dialect.operator? left = some text) :
    text.length ≤ left.length := by
  rw [operator?] at h
  split at h
  · cases h
    exact Nat.le_refl _
  · split at h
    · cases h
    · next rest hrest => exact Nat.le_trans (Text.length_of_stripEnd? h) (Text.length_of_strip? hrest)

/-- **The term that a text is read as**, if it is the text of one. -/
def read (dialect : Dialect) (text : List Char) : Option Term :=
  match _hgroup : Text.lastGroup? text with
  | none => if Name.isWord (String.ofList text) then some (.atom (String.ofList text)) else none
  | some ([], inner) =>
    match _hinner : dialect.heading? inner with
    | none => none
    | some (parameter, body) => (dialect.read body).map (.abstraction parameter)
  | some (c :: left, inner) =>
    match _hleft : dialect.operator? (c :: left) with
    | none => none
    | some operator =>
      match dialect.read operator, dialect.read inner with
      | some operator, some operand => some (.application operator operand)
      | _, _ => none
termination_by text.length
decreasing_by
  · have hshorter := Text.length_of_lastGroup? _hgroup
    have hbody := length_of_heading? _hinner
    omega
  · have hshorter := Text.length_of_lastGroup? _hgroup
    have hoperator := length_of_operator? _hleft
    omega
  · have hshorter := Text.length_of_lastGroup? _hgroup
    omega

/-! ### Texts of the three kinds -/

theorem read_word {name : String} (h : Name.isWord name) :
    dialect.read name.toList = some (.atom name) := by
  have hnone : Text.lastGroup? name.toList = none := by
    refine Text.lastGroup?_of_not_mem fun hmem => ?_
    exact (Text.ne_of_isIdentifierPart ((Name.isWord_iff.mp h).2 ')' hmem)).2 rfl
  rw [read]
  split
  · rw [String.ofList_toList, if_pos h]
  · next hgroup => cases hnone.symm.trans hgroup
  · next hgroup => cases hnone.symm.trans hgroup

theorem heading?_heading (h : Name.isWord parameter) (body : List Char) :
    dialect.heading? (dialect.heading parameter ++ body) = some (parameter, body) := by
  have hparts := (Name.isWord_iff.mp h).2
  obtain ⟨c, behind, hbehind, hc⟩ := dialect.exists_behind
  have htake : (parameter.toList ++ (dialect.behind ++ body)).takeWhile Text.isIdentifierPart =
      parameter.toList := by
    rw [List.takeWhile_append_of_pos hparts, hbehind, List.cons_append,
      List.takeWhile_cons_of_neg (by simp [hc]), List.append_nil]
  have hdrop : (parameter.toList ++ (dialect.behind ++ body)).dropWhile Text.isIdentifierPart =
      dialect.behind ++ body := by
    rw [List.dropWhile_append_of_pos hparts, hbehind, List.cons_append,
      List.dropWhile_cons_of_neg (by simp [hc])]
  rw [heading?, heading, List.append_assoc, List.append_assoc, Text.strip?_append]
  simp only [htake, hdrop, Text.strip?_append, String.ofList_toList]

theorem read_function (h : Name.isWord parameter) (htext : Nesting.Balanced Text.nesting text) :
    dialect.read ('(' :: (dialect.heading parameter ++ text ++ [')'])) =
      (dialect.read text).map (.abstraction parameter) := by
  have hinner : Nesting.Balanced Text.nesting (dialect.heading parameter ++ text) :=
    (balanced_heading_of_parts (Name.isWord_iff.mp h).2).append htext
  have hlast : Text.lastGroup? ('(' :: (dialect.heading parameter ++ text ++ [')'])) =
      some ([], dialect.heading parameter ++ text) := Text.lastGroup?_append hinner []
  have hheading : dialect.heading? (dialect.heading parameter ++ text) = some (parameter, text) :=
    heading?_heading h text
  rw [read]
  split
  · next hgroup => cases hlast.symm.trans hgroup
  · next hgroup =>
    cases hlast.symm.trans hgroup
    split
    · next hnone => cases hheading.symm.trans hnone
    · next hsome =>
      cases hheading.symm.trans hsome
      rfl
  · next hgroup => cases hlast.symm.trans hgroup

theorem operator?_operator (text : List Char) :
    dialect.operator? (dialect.operator text) = some text := by
  rw [operator?, operator]
  cases dialect.gap? with
  | none => rfl
  | some gap =>
    have hstrip := Text.strip?_append ['('] (text ++ ')' :: gap)
    rw [List.singleton_append] at hstrip
    simp only [hstrip]
    exact Text.stripEnd?_append text (')' :: gap)

theorem read_call {right : List Char} (hleft : left ≠ [])
    (hright : Nesting.Balanced Text.nesting right) (hoperator : dialect.read left = some operator)
    (hoperand : dialect.read right = some operand) :
    dialect.read (dialect.operator left ++ '(' :: (right ++ [')'])) =
      some (.application operator operand) := by
  have hlast := Text.lastGroup?_append hright (dialect.operator left)
  have hne : dialect.operator left ≠ [] := by
    rw [Dialect.operator]
    cases dialect.gap? with
    | none => exact hleft
    | some gap => exact List.cons_ne_nil _ _
  rw [read]
  split
  · next hgroup => cases hlast.symm.trans hgroup
  · next hgroup =>
    rw [hlast, Option.some.injEq, Prod.mk.injEq] at hgroup
    exact absurd hgroup.1 hne
  · next hgroup =>
    rw [hlast, Option.some.injEq, Prod.mk.injEq] at hgroup
    obtain ⟨hoperators, rfl⟩ := hgroup
    rw [← hoperators]
    split
    · next hnone => cases (operator?_operator left).symm.trans hnone
    · next hsome =>
      cases (operator?_operator left).symm.trans hsome
      rw [hoperator, hoperand]

end Dialect

/-! ### Plain terms -/

/-- **Whether a term is plain**: it is made of names, functions and calls alone, and its names are
words. -/
def Term.isPlain : Term → Bool
  | atom name => Name.isWord name
  | definition _ _ => false
  | abstraction parameter body => Name.isWord parameter && body.isPlain
  | application operator operand => operator.isPlain && operand.isPlain
  | sequence _ => false

theorem Backend.isWord_escape (reserved : List String) {name : String} (h : Name.isWord name) :
    Name.isWord (escape reserved name) := by
  by_cases hmem : name ∈ reserved
  · obtain ⟨hne, hparts⟩ := Name.isWord_iff.mp h
    rw [escape_of_mem hmem, Name.isWord_iff, String.toList_append]
    refine ⟨List.append_ne_nil_of_left_ne_nil hne _, fun c hc => ?_⟩
    rcases List.mem_append.mp hc with hc | hc
    · exact hparts c hc
    · obtain rfl : c = '_' := by simpa using hc
      exact Text.isIdentifierPart_underscore
  · rwa [escape_of_not_mem hmem]

namespace Dialect

open Backend

/-- **The text of a plain term**, with names escaped. Other terms have none. -/
def spelling (dialect : Dialect) : Term → List Char
  | .atom name => (escape dialect.reserved name).toList
  | .definition _ _ => []
  | .abstraction parameter body =>
    '(' :: (dialect.heading (escape dialect.reserved parameter) ++ dialect.spelling body ++ [')'])
  | .application operator operand =>
    dialect.operator (dialect.spelling operator) ++ '(' :: (dialect.spelling operand ++ [')'])
  | .sequence _ => []

variable {dialect : Dialect} {term : Term}

theorem balanced_spelling (h : term.isPlain) :
    Nesting.Balanced Text.nesting (dialect.spelling term) := by
  induction term using Term.induction with
  | atom name =>
    refine Nesting.balanced_of_forall fun c hc => ?_
    have hword := Name.isWord_iff.mp (isWord_escape dialect.reserved h)
    exact Text.nesting_of_ne (Text.ne_of_isIdentifierPart (hword.2 c hc))
  | definition name value _ => cases h
  | abstraction parameter body ih =>
    obtain ⟨hparameter, hbody⟩ := Bool.and_eq_true_iff.mp h
    have hword := Name.isWord_iff.mp (isWord_escape dialect.reserved hparameter)
    exact ((balanced_heading_of_parts hword.2).append (ih hbody)).enclose rfl rfl
  | application operator operand ihOperator ihOperand =>
    obtain ⟨hoperator, hoperand⟩ := Bool.and_eq_true_iff.mp h
    exact (balanced_operator (ihOperator hoperator)).append ((ihOperand hoperand).enclose rfl rfl)
  | sequence members _ => cases h

theorem spelling_ne_nil (h : term.isPlain) : dialect.spelling term ≠ [] := by
  cases term with
  | atom name => exact (Name.isWord_iff.mp (isWord_escape dialect.reserved h)).1
  | definition name value => cases h
  | abstraction parameter body => exact List.cons_ne_nil _ _
  | application operator operand => exact List.append_ne_nil_of_right_ne_nil _ (List.cons_ne_nil _ _)
  | sequence members => cases h

/-- **Reading the text of a term gives the term**, with names escaped. -/
theorem read_spelling (h : term.isPlain) :
    dialect.read (dialect.spelling term) = some (term.rename (escape dialect.reserved)) := by
  induction term using Term.induction with
  | atom name => exact read_word (isWord_escape dialect.reserved h)
  | definition name value _ => cases h
  | abstraction parameter body ih =>
    obtain ⟨hparameter, hbody⟩ := Bool.and_eq_true_iff.mp h
    rw [spelling, read_function (isWord_escape dialect.reserved hparameter) (balanced_spelling hbody),
      ih hbody]
    rfl
  | application operator operand ihOperator ihOperand =>
    obtain ⟨hoperator, hoperand⟩ := Bool.and_eq_true_iff.mp h
    exact read_call (spelling_ne_nil hoperator) (balanced_spelling hoperand) (ihOperator hoperator)
      (ihOperand hoperand)
  | sequence members _ => cases h

/-! ### The three targets -/

/-- **A table follows a dialect in a state**: it writes names, functions and calls as the dialect has
them, and leaves the state as it is. -/
structure Follows {σ : Type} (dialect : Dialect) (rules : Rules σ) (state : σ) : Prop where
  /-- Names are escaped. -/
  atom : ∀ name bound, rules.atom name bound state = (escape dialect.reserved name, state)
  /-- Functions have a heading. -/
  abstraction : ∀ parameter body, rules.abstraction parameter body state =
    (String.ofList
      ('(' :: (dialect.heading (escape dialect.reserved parameter) ++ body.toList ++ [')'])), state)
  /-- Operands are put into parentheses. -/
  application : ∀ operator operand, rules.application operator operand state =
    (String.ofList (dialect.operator operator.toList ++ '(' :: (operand.toList ++ [')'])), state)

/-- **What a table writes for a term** is the text of the term in its dialect. -/
theorem Follows.text_eq {σ : Type} {rules : Rules σ} {state : σ} (h : dialect.Follows rules state)
    (hterm : term.isPlain) (scope : List String) :
    rules.text scope term state = (String.ofList (dialect.spelling term), state) := by
  induction term using Term.induction generalizing scope with
  | atom name => rw [Rules.text, h.atom, spelling, String.ofList_toList]
  | definition name value _ => cases hterm
  | abstraction parameter body ih =>
    obtain ⟨-, hbody⟩ := Bool.and_eq_true_iff.mp hterm
    rw [Rules.text_abstraction, ih hbody, h.abstraction, spelling, String.toList_ofList]
  | application operator operand ihOperator ihOperand =>
    obtain ⟨hoperator, hoperand⟩ := Bool.and_eq_true_iff.mp hterm
    rw [Rules.text_application, ihOperator hoperator, ihOperand hoperand, h.application, spelling,
      String.toList_ofList, String.toList_ofList]
  | sequence members _ => cases hterm

/-- A table without a state that a dialect governs follows it. -/
theorem Governs.follows {rules : Rules Unit} (h : dialect.Governs rules) : dialect.Follows rules () where
  atom name bound := Prod.ext (h.atom name bound) rfl
  abstraction parameter body :=
    Prod.ext (String.toList_injective (by rw [h.abstraction, String.toList_ofList])) rfl
  application operator operand :=
    Prod.ext (String.toList_injective (by rw [h.application, String.toList_ofList])) rfl

/-- **The dialect of the lambda calculus on paper**: `(λ x.BODY)` and `(OPERATOR) (OPERAND)`. -/
def church : Dialect where
  reserved := []
  before := ['λ', ' ']
  behind := ['.']
  gap? := some [' ']

theorem follows_church : church.Follows Church.rules [] where
  atom name bound := by
    change Recorded.use name bound name [] = _
    rw [Recorded.use_eq, List.lookup_nil, Option.getD_none, ite_self]
    rfl
  abstraction parameter body := by
    refine Prod.ext (String.toList_injective ?_) rfl
    change ("(λ " ++ parameter ++ "." ++ body ++ ")").toList = _
    simp [heading, church, escape]
  application operator operand := by
    refine Prod.ext (String.toList_injective ?_) rfl
    change ("(" ++ operator ++ ") (" ++ operand ++ ")").toList = _
    simp [Dialect.operator, church]

/-- **The term that a text is read as**, as a reader of strings. -/
def readText (dialect : Dialect) (text : String) : Option Term :=
  dialect.read text.toList

/-- **What a table writes for a term as an item of a program is read as that term**, with names
escaped. -/
theorem Follows.readText_item {σ : Type} {rules : Rules σ} {state : σ}
    (h : dialect.Follows rules state) (hterm : term.isPlain) :
    dialect.readText (rules.item term state).1 = some (term.rename (escape dialect.reserved)) := by
  rw [Rules.item_eq, h.text_eq hterm, readText, String.toList_ofList, read_spelling hterm]

end Dialect

open Dialect

/-- **Functions and calls can be read back in every target.** For a term of names, functions and calls
whose names are words, each of the three readers gives back the term from the text that its backend
writes for it, with names as the backend writes them. So two such terms with the same text are the same
but for that. -/
theorem Rules.item_readable (term : Term) (h : term.isPlain) :
    (javaScript.readText (JavaScript.rules.item term ()).1 =
        some (term.rename JavaScript.identifier) ∧
      python.readText (Python.rules.item term ()).1 = some (term.rename Python.identifier) ∧
      church.readText (Church.rules.item term []).1 = some term) ∧
    ∀ other : Term, other.isPlain →
      ((JavaScript.rules.item term ()).1 = (JavaScript.rules.item other ()).1 →
        term.rename JavaScript.identifier = other.rename JavaScript.identifier) ∧
      ((Python.rules.item term ()).1 = (Python.rules.item other ()).1 →
        term.rename Python.identifier = other.rename Python.identifier) ∧
      ((Church.rules.item term []).1 = (Church.rules.item other []).1 → term = other) := by
  have hjavaScript : ∀ term : Term, term.isPlain →
      javaScript.readText (JavaScript.rules.item term ()).1 =
        some (term.rename JavaScript.identifier) :=
    fun _ => governs_javaScript.follows.readText_item
  have hpython : ∀ term : Term, term.isPlain →
      python.readText (Python.rules.item term ()).1 = some (term.rename Python.identifier) :=
    fun _ => governs_python.follows.readText_item
  have hchurch : ∀ term : Term, term.isPlain →
      church.readText (Church.rules.item term []).1 = some term := by
    intro term hterm
    have hname : ∀ name, Backend.escape church.reserved name = name := fun _ => rfl
    have hread := follows_church.readText_item hterm
    rwa [Term.rename_eq_self hname] at hread
  have hsame : ∀ {read : String → Option Term} {text text' : String} {term term' : Term},
      read text = some term → read text' = some term' → text = text' → term = term' := by
    rintro read text _ term term' hread hread' rfl
    exact Option.some.inj (hread.symm.trans hread')
  exact ⟨⟨hjavaScript term h, hpython term h, hchurch term h⟩, fun other hother =>
    ⟨hsame (hjavaScript term h) (hjavaScript other hother),
      hsame (hpython term h) (hpython other hother), hsame (hchurch term h) (hchurch other hother)⟩⟩

/-- A call of a function, with a function for its operand and with names that are words of the targets,
or start with a digit. -/
def Term.wordsOfTargets : Term :=
  .application (.abstraction "lambda" (.application (.atom "λ") (.atom "0")))
    (.abstraction "x" (.atom "new"))

theorem Rules.item_readable_wordsOfTargets :
    Term.wordsOfTargets.isPlain ∧
    javaScript.readText "(lambda => λ(0))((x => new_))" =
      some (.application (.abstraction "lambda" (.application (.atom "λ") (.atom "0")))
        (.abstraction "x" (.atom "new_"))) ∧
    python.readText "((lambda lambda_: (λ)(0)))((lambda x: new))" =
      some (.application (.abstraction "lambda_" (.application (.atom "λ") (.atom "0")))
        (.abstraction "x" (.atom "new"))) ∧
    church.readText "((λ lambda.(λ) (0))) ((λ x.new))" = some Term.wordsOfTargets := by
  have hplain : Term.wordsOfTargets.isPlain := by decide
  obtain ⟨⟨hjavaScript, hpython, hchurch⟩, -⟩ := item_readable Term.wordsOfTargets hplain
  simp only [item_eq] at hjavaScript hpython hchurch
  exact ⟨hplain, hjavaScript, hpython, hchurch⟩

end ParenLambda
