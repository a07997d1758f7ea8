import ParenLambda.Backend.Inlining
import ParenLambda.Proofs.Inlining.Expansion
import ParenLambda.Proofs.Rendering.Walk

/-!
# Inlining texts is rendering inlined trees

The backends without definitions put recorded texts in place of names while they render. Rendering
commutes with it: the text that comes out is the text of the inlined tree of
`ParenLambda.Term.expand`, rendered by a table that keeps no record and knows nothing of definitions.
The two backends differ in that **plain** table only, so what is said of both is said once, of any
table that inlines for a plain one (`ParenLambda.Rules.Inlines`).

The invariant is that the record holds, for each name, the text of the tree that the name stands for.
A recorded tree is rendered where its definition stands and used wherever the name is, inside other
abstractions; this is why a plain table must not look at whether a name is bound.
-/

namespace ParenLambda

/-! ### The walk on trees, in a state -/

namespace Term

variable (scope : List String) (expansions : Expansions)

theorem expand_atom (name : String) :
    (atom name).expand scope expansions =
      (if scope.contains name then atom name else (expansions.lookup name).getD (atom name),
        expansions) :=
  expand_of_isExpression (atom name) rfl

theorem expand_definition (name : String) (value : Term) :
    (definition name value).expand scope expansions =
      (sequence [],
        (name, (value.expand scope expansions).1) :: (value.expand scope expansions).2) := by
  rw [expand]
  rfl

theorem expand_abstraction (parameter : String) (body : Term) :
    (abstraction parameter body).expand scope expansions =
      (abstraction parameter (body.expand (parameter :: scope) expansions).1,
        (body.expand (parameter :: scope) expansions).2) := by
  rw [expand]
  rfl

theorem expand_application (operator operand : Term) :
    (application operator operand).expand scope expansions =
      (application (operator.expand scope expansions).1
        (operand.expand scope (operator.expand scope expansions).2).1,
        (operand.expand scope (operator.expand scope expansions).2).2) := by
  rw [expand]
  rfl

theorem expand_sequence (members : List Term) :
    (sequence members).expand scope expansions =
      (sequence (expandAll scope members expansions).1,
        (expandAll scope members expansions).2) := by
  rw [expand]
  rfl

theorem expandAll_cons (term : Term) (rest : List Term) :
    expandAll scope (term :: rest) expansions =
      ((term.expand scope expansions).1 ::
        (expandAll scope rest (term.expand scope expansions).2).1,
        (expandAll scope rest (term.expand scope expansions).2).2) := by
  rw [expandAll]
  rfl

end Term

/-! ### Plain tables -/

namespace Rules

/-- The text of a term by a table without a state, outside all abstractions. -/
def plainText (plain : Rules Unit) (term : Term) : String :=
  (plain.text [] term ()).1

theorem item_plainText (plain : Rules Unit) (item : Term) :
    (plain.item item ()).1 = plain.plainText item := by
  rw [item_eq]
  rfl

/-- **A table inlines for a plain one**: it records definitions, looks names up, and does everything
else as the plain table does, which keeps no state and does not ask whether a name is bound. -/
structure Inlines (rules : Rules Recorded) (plain : Rules Unit) : Prop where
  /-- Definitions are recorded. -/
  definition : ∀ name value, rules.definition name value = Recorded.define name value
  /-- Functions are written as in the plain table. -/
  abstraction : ∀ parameter body,
    rules.abstraction parameter body = pure (plain.abstraction parameter body ()).1
  /-- Applications are written as in the plain table. -/
  application : ∀ operator operand,
    rules.application operator operand = pure (plain.application operator operand ()).1
  /-- A name is looked up, and otherwise written as in the plain table. -/
  atom : ∀ name bound, rules.atom name bound = Recorded.use name bound (plain.atom name false ()).1
  /-- Sequences stand back to back. -/
  sequence : ∀ members, rules.sequence members = pure (String.join members)
  /-- Sequences stand back to back in the plain table. -/
  plain_sequence : ∀ members, plain.sequence members = pure (String.join members)
  /-- The plain table does not ask whether a name is bound. -/
  plain_atom : ∀ name bound, plain.atom name bound = plain.atom name false

variable {rules : Rules Recorded} {plain : Rules Unit}

theorem texts_scope_of_forall {scope : List String} {terms : List Term}
    (h : ∀ term ∈ terms, plain.text scope term = plain.text [] term) :
    plain.texts scope terms = plain.texts [] terms := by
  induction terms with
  | nil => rfl
  | cons term rest ih =>
    have hrest := ih fun other hother => h other (List.mem_cons_of_mem _ hother)
    rw [texts, texts, h term List.mem_cons_self, hrest]

/-- A plain table writes a term in the same way wherever it stands. -/
theorem Inlines.text_scope (h : rules.Inlines plain) (scope : List String) (term : Term) :
    plain.text scope term = plain.text [] term := by
  induction term using Term.induction generalizing scope with
  | atom name => rw [text, text, h.plain_atom, h.plain_atom name (List.contains [] name)]
  | definition name value ih => rw [text, text, ih]
  | abstraction parameter body ih => rw [text, text, ih, ih [parameter]]
  | application operator operand ihOperator ihOperand => rw [text, text, ihOperator, ihOperand]
  | sequence members ih =>
    rw [text, text, texts_scope_of_forall fun member hmember => ih member hmember scope]

theorem plainText_application (operator operand : Term) :
    plain.plainText (.application operator operand) =
      (plain.application (plain.plainText operator) (plain.plainText operand) ()).1 := by
  rw [plainText, text_application]
  rfl

theorem Inlines.plainText_abstraction (h : rules.Inlines plain) (parameter : String) (body : Term) :
    plain.plainText (.abstraction parameter body) =
      (plain.abstraction parameter (plain.plainText body) ()).1 := by
  rw [plainText, text_abstraction, h.text_scope]
  rfl

theorem texts_plainText (terms : List Term) :
    (plain.texts [] terms ()).1 = terms.map plain.plainText := by
  induction terms with
  | nil => rfl
  | cons term rest ih =>
    rw [texts_cons, List.map_cons, ← ih]
    rfl

theorem Inlines.plainText_sequence (h : rules.Inlines plain) (members : List Term) :
    plain.plainText (.sequence members) = String.join (members.map plain.plainText) := by
  rw [plainText, text_sequence, h.plain_sequence, texts_plainText]
  rfl

end Rules

/-! ### The record of texts -/

/-- The texts of the trees that the definitions so far stand for. -/
def Expansions.texts (plain : Rules Unit) (expansions : Expansions) : Recorded :=
  expansions.map fun entry => (entry.1, plain.plainText entry.2)

theorem Expansions.lookup_texts (plain : Rules Unit) (expansions : Expansions) (name : String) :
    (texts plain expansions).lookup name = (expansions.lookup name).map plain.plainText := by
  induction expansions with
  | nil => rfl
  | cons entry rest ih =>
    obtain ⟨defined, tree⟩ := entry
    rw [texts, List.map_cons, List.lookup_cons, List.lookup_cons]
    cases name == defined with
    | true => rfl
    | false => exact ih

/-- The text of a tree, in the record of the texts of the recorded trees. -/
def Rules.rendered (plain : Rules Unit) (outcome : Term × Expansions) : String × Recorded :=
  (plain.plainText outcome.1, outcome.2.texts plain)

namespace Rules

variable {rules : Rules Recorded} {plain : Rules Unit}

/-! ### Rendering commutes with inlining -/

theorem Inlines.text_atom (h : rules.Inlines plain) (scope : List String) (name : String)
    (expansions : Expansions) :
    rules.text scope (.atom name) (expansions.texts plain) =
      plain.rendered ((Term.atom name).expand scope expansions) := by
  rw [text, h.atom, Term.expand_atom]
  simp only [Recorded.use, bind, StateT.bind, get, getThe, MonadStateOf.get, StateT.get, pure]
  rw [expansions.lookup_texts plain name]
  cases expansions.lookup name with
  | none => cases scope.contains name <;> rfl
  | some tree => cases scope.contains name <;> rfl

theorem texts_expandAll_of_forall {scope : List String} {members : List Term}
    (h : ∀ member ∈ members, ∀ expansions : Expansions,
      rules.text scope member (expansions.texts plain) =
        plain.rendered (member.expand scope expansions))
    (expansions : Expansions) :
    rules.texts scope members (expansions.texts plain) =
      ((Term.expandAll scope members expansions).1.map plain.plainText,
        Expansions.texts plain (Term.expandAll scope members expansions).2) := by
  induction members generalizing expansions with
  | nil => rfl
  | cons member rest ih =>
    have hmember := h member List.mem_cons_self expansions
    have hrest := ih (fun other hother => h other (List.mem_cons_of_mem _ hother))
      (member.expand scope expansions).2
    rw [texts_cons, hmember, rendered, hrest, Term.expandAll_cons, List.map_cons]

/-- **The text of a term is the text of its tree.** If the record holds the texts of the recorded trees,
rendering a term with inlining gives the text of the inlined tree, and the record holds the texts of
the recorded trees afterwards. -/
theorem Inlines.text_expand (h : rules.Inlines plain) (scope : List String) (term : Term)
    (expansions : Expansions) :
    rules.text scope term (expansions.texts plain) =
      plain.rendered (term.expand scope expansions) := by
  induction term using Term.induction generalizing scope expansions with
  | atom name => exact h.text_atom scope name expansions
  | definition name value ih =>
    rw [text_definition, ih, h.definition, Term.expand_definition, rendered, rendered,
      h.plainText_sequence]
    rfl
  | abstraction parameter body ih =>
    rw [text_abstraction, ih, h.abstraction, Term.expand_abstraction, rendered, rendered,
      h.plainText_abstraction]
    rfl
  | application operator operand ihOperator ihOperand =>
    rw [text_application, ihOperator, rendered, ihOperand, h.application, Term.expand_application,
      rendered, rendered, plainText_application]
    rfl
  | sequence members ih =>
    have hmembers := texts_expandAll_of_forall (fun member hmember => ih member hmember scope)
      expansions
    rw [text_sequence, hmembers, h.sequence, Term.expand_sequence, rendered, h.plainText_sequence]
    rfl

end Rules

/-! ### Trees hold no definitions -/

/-- No recorded tree holds a definition. -/
def Expansions.Definitionless (expansions : Expansions) : Prop :=
  ∀ entry ∈ expansions, entry.2.isExpression

namespace Term

theorem isExpression_lookup {expansions : Expansions} (h : expansions.Definitionless)
    (name : String) : ((expansions.lookup name).getD (atom name)).isExpression := by
  induction expansions with
  | nil => rfl
  | cons entry rest ih =>
    rw [List.lookup_cons]
    cases name == entry.1 with
    | true => exact h entry List.mem_cons_self
    | false => exact ih fun other hother => h other (List.mem_cons_of_mem _ hother)

theorem areExpressions_expandAll_of_forall {scope : List String} {members : List Term}
    (hmembers : ∀ member ∈ members, ∀ expansions : Expansions, expansions.Definitionless →
      (member.expand scope expansions).1.isExpression ∧
        Expansions.Definitionless (member.expand scope expansions).2)
    {expansions : Expansions} (h : expansions.Definitionless) :
    areExpressions (expandAll scope members expansions).1 ∧
      Expansions.Definitionless (expandAll scope members expansions).2 := by
  induction members generalizing expansions with
  | nil => exact ⟨rfl, h⟩
  | cons member rest ih =>
    obtain ⟨hhead, hrecord⟩ := hmembers member List.mem_cons_self expansions h
    obtain ⟨htail, hrest⟩ :=
      ih (fun other hother => hmembers other (List.mem_cons_of_mem _ hother)) hrecord
    rw [expandAll_cons]
    refine ⟨?_, hrest⟩
    rw [areExpressions, hhead, htail]
    rfl

/-- **An inlined tree holds no definition**, and neither do the trees recorded on the way. -/
theorem isExpression_expand (scope : List String) (term : Term) (expansions : Expansions)
    (h : expansions.Definitionless) :
    (term.expand scope expansions).1.isExpression ∧
      Expansions.Definitionless (term.expand scope expansions).2 := by
  induction term using Term.induction generalizing scope expansions with
  | atom name =>
    rw [expand_atom]
    refine ⟨?_, h⟩
    cases scope.contains name with
    | true => rfl
    | false => exact isExpression_lookup h name
  | definition name value ih =>
    obtain ⟨htree, hrecord⟩ := ih scope expansions h
    rw [expand_definition]
    refine ⟨rfl, ?_⟩
    rintro entry hentry
    rcases List.mem_cons.mp hentry with rfl | hentry
    · exact htree
    · exact hrecord entry hentry
  | abstraction parameter body ih =>
    rw [expand_abstraction]
    exact ih (parameter :: scope) expansions h
  | application operator operand ihOperator ihOperand =>
    obtain ⟨hoperator, hmiddle⟩ := ihOperator scope expansions h
    obtain ⟨hoperand, hrecord⟩ := ihOperand scope _ hmiddle
    rw [expand_application]
    refine ⟨?_, hrecord⟩
    rw [isExpression, hoperator, hoperand]
    rfl
  | sequence members ih =>
    rw [expand_sequence]
    exact areExpressions_expandAll_of_forall (fun member hmember => ih member hmember scope) h

end Term

/-! ### The two backends -/

/-- The notation of the lambda calculus without inlining: every name stands for itself. The rule for
definitions is there because a table has one; an inlined tree has no use for it. -/
def Church.plainRules : Rules Unit where
  start := ()
  program items _ := String.join items
  definition _ _ := pure ""
  abstraction parameter body := pure ("(λ " ++ parameter ++ "." ++ body ++ ")")
  application operator operand := pure ("(" ++ operator ++ ") (" ++ operand ++ ")")
  atom name _ := pure name

theorem JavaScript.inliningRules_inlines : inliningRules.Inlines JavaScript.rules where
  definition _ _ := rfl
  abstraction _ _ := rfl
  application _ _ := rfl
  atom _ _ := rfl
  sequence _ := rfl
  plain_sequence _ := rfl
  plain_atom _ _ := rfl

theorem Church.rules_inlines : Church.rules.Inlines Church.plainRules where
  definition _ _ := rfl
  abstraction _ _ := rfl
  application _ _ := rfl
  atom _ _ := rfl
  sequence _ := rfl
  plain_sequence _ := rfl
  plain_atom _ _ := rfl

namespace Program

/-- **The trees of the items of a program**, where each definition has left an empty sequence. -/
def expanded (program : Program) : List Term :=
  (Term.expandAll [] program.body []).1

theorem texts_expanded {rules : Rules Recorded} {plain : Rules Unit} (h : rules.Inlines plain)
    (program : Program) :
    (rules.texts [] program.body []).1 =
      program.expanded.map fun tree => (plain.item tree ()).1 := by
  have htexts := Rules.texts_expandAll_of_forall
    (fun term (_ : term ∈ program.body) => h.text_expand [] term) []
  have hitem : (fun tree => (plain.item tree ()).1) = plain.plainText :=
    funext plain.item_plainText
  rw [hitem]
  exact congrArg Prod.fst htexts

/-- **The two inlining backends print the same trees.** None of the inlined items of a program holds a
definition. JavaScript without definitions is the items rendered as by JavaScript with named bindings,
those without a text left out, with a semicolon between any two; the notation of the lambda calculus
is the same items in plain notation, back to back. -/
theorem inlining_backends (program : Program) (prelude : Option String) :
    (∀ tree ∈ program.expanded, tree.isExpression) ∧
    Backend.javaScriptInline.render program none =
      ";\n".intercalate ((program.expanded.map fun tree => (JavaScript.rules.item tree ()).1).filter
        fun text => !text.isEmpty) ∧
    Backend.church.render program prelude =
      String.join (program.expanded.map fun tree => (Church.plainRules.item tree ()).1) := by
  refine ⟨?_, ?_, ?_⟩
  · have hall := Term.areExpressions_expandAll_of_forall
      (fun term (_ : term ∈ program.body) => Term.isExpression_expand [] term)
      (List.forall_mem_nil _)
    exact Term.areExpressions_iff.mp hall.1
  · rw [← texts_expanded JavaScript.inliningRules_inlines]
    exact JavaScript.inliningRules.render_eq program
  · rw [← texts_expanded Church.rules_inlines]
    exact Church.rules.render_eq program

end Program

end ParenLambda
