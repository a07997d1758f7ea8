import ParenLambda.Proofs.Induction

/-!
# Inlining on trees

The backends without definitions put recorded *texts* in place of names. This file is the same
reading on trees: every name that no enclosing abstraction of its item binds, and that has been
defined before, becomes the tree its definition stands for, and that tree has been inlined itself
when it was recorded. Trees are put in as they are, without regard to capture.

`ParenLambda.Term.expand` goes through a term in the order in which terms are rendered and records
the definitions it meets, wherever they stand. A term without definitions changes nothing in the
record, and there the walk is the plain function `ParenLambda.Term.inline` of the record
(`ParenLambda.Term.expand_of_isExpression`), which is what the theory of inlining speaks about.
-/

namespace ParenLambda

/-- The trees that the definitions so far stand for, latest first. -/
abbrev Expansions := List (String × Term)

namespace Term

/-! ### Free names and definitions -/

mutual

/-- The names that a term uses and does not bind. -/
def free : Term → List String
  | atom name => [name]
  | definition _ value => value.free
  | abstraction parameter body => body.free.filter (· ≠ parameter)
  | application operator operand => operator.free ++ operand.free
  | sequence members => freeAll members

/-- The names that a list of terms uses and does not bind. -/
def freeAll : List Term → List String
  | [] => []
  | term :: rest => term.free ++ freeAll rest

end

mutual

/-- Whether a term holds no definition, at any depth. -/
def isExpression : Term → Bool
  | atom _ => true
  | definition _ _ => false
  | abstraction _ body => body.isExpression
  | application operator operand => operator.isExpression && operand.isExpression
  | sequence members => areExpressions members

/-- Whether no term of a list holds a definition, at any depth. -/
def areExpressions : List Term → Bool
  | [] => true
  | term :: rest => term.isExpression && areExpressions rest

end

theorem freeAll_eq (members : List Term) : freeAll members = members.flatMap free := by
  induction members with
  | nil => rfl
  | cons member members ih => rw [freeAll, ih, List.flatMap_cons]

theorem areExpressions_iff {members : List Term} :
    areExpressions members ↔ ∀ member ∈ members, member.isExpression := by
  induction members with
  | nil => simp [areExpressions]
  | cons member members ih => simp [areExpressions, ih]

/-! ### The walk and its plain form -/

mutual

/-- **The tree of a term** inside abstractions with the parameters `scope`. A definition leaves an
empty sequence and is recorded. -/
def expand (scope : List String) : Term → StateM Expansions Term
  | atom name => do
    let expansions ← get
    match expansions.lookup name with
    | some tree => pure (if scope.contains name then atom name else tree)
    | none => pure (atom name)
  | definition name value => do
    let tree ← expand scope value
    modify ((name, tree) :: ·)
    pure (sequence [])
  | abstraction parameter body => do
    let body ← expand (parameter :: scope) body
    pure (abstraction parameter body)
  | application operator operand => do
    let operator ← expand scope operator
    let operand ← expand scope operand
    pure (application operator operand)
  | sequence members => do
    let members ← expandAll scope members
    pure (sequence members)

/-- The trees of a list of terms, in order. -/
def expandAll (scope : List String) : List Term → StateM Expansions (List Term)
  | [] => pure []
  | term :: rest => do
    let head ← expand scope term
    let tail ← expandAll scope rest
    pure (head :: tail)

end

mutual

/-- The tree of a term, given what the names stand for throughout. -/
def inline (expansions : Expansions) (scope : List String) : Term → Term
  | atom name =>
    if scope.contains name then atom name else (expansions.lookup name).getD (atom name)
  | definition name value => definition name (inline expansions scope value)
  | abstraction parameter body =>
    abstraction parameter (inline expansions (parameter :: scope) body)
  | application operator operand =>
    application (inline expansions scope operator) (inline expansions scope operand)
  | sequence members => sequence (inlineAll expansions scope members)

/-- The trees of a list of terms, given what the names stand for throughout. -/
def inlineAll (expansions : Expansions) (scope : List String) : List Term → List Term
  | [] => []
  | term :: rest => inline expansions scope term :: inlineAll expansions scope rest

end

theorem inlineAll_eq (expansions : Expansions) (scope : List String) (members : List Term) :
    inlineAll expansions scope members = members.map (inline expansions scope) := by
  induction members with
  | nil => rfl
  | cons member members ih => rw [inlineAll, ih, List.map_cons]

theorem expandAll_of_forall {expansions : Expansions} {scope : List String} {members : List Term}
    (h : ∀ member ∈ members,
      member.expand scope expansions = (member.inline expansions scope, expansions)) :
    expandAll scope members expansions = (inlineAll expansions scope members, expansions) := by
  induction members with
  | nil => rfl
  | cons member members ih =>
    have hhead := h member List.mem_cons_self
    have htail := ih fun other hother => h other (List.mem_cons_of_mem _ hother)
    simp only [expandAll, inlineAll, bind, StateT.bind, hhead, htail]
    rfl

/-- **A term without definitions leaves the record as it is**, and its tree is a plain function of
the record. -/
theorem expand_of_isExpression (term : Term) {expansions : Expansions} {scope : List String}
    (h : term.isExpression) :
    term.expand scope expansions = (term.inline expansions scope, expansions) := by
  induction term using Term.induction generalizing scope with
  | atom name =>
    simp only [expand, inline, bind, StateT.bind, get, getThe, MonadStateOf.get, StateT.get, pure]
    cases expansions.lookup name with
    | none =>
      rw [Option.getD_none, ite_self]
      rfl
    | some tree => rfl
  | definition name value => simp [isExpression] at h
  | abstraction parameter body ih =>
    simp only [expand, inline, bind, StateT.bind, ih h]
    rfl
  | application operator operand ihOperator ihOperand =>
    simp only [isExpression, Bool.and_eq_true] at h
    simp only [expand, inline, bind, StateT.bind, ihOperator h.1, ihOperand h.2]
    rfl
  | sequence members ih =>
    have hmembers := areExpressions_iff.mp h
    have hall : expandAll scope members expansions =
        (inlineAll expansions scope members, expansions) :=
      expandAll_of_forall fun member hmember => ih member hmember (hmembers member hmember)
    simp only [expand, inline, bind, StateT.bind, hall]
    rfl

/-- **Only the free names of a term matter for its tree.** -/
theorem inline_congr (term : Term) {left right : Expansions} {scope : List String}
    (h : ∀ name ∈ term.free, name ∉ scope → left.lookup name = right.lookup name) :
    term.inline left scope = term.inline right scope := by
  induction term using Term.induction generalizing scope with
  | atom name =>
    by_cases hscope : name ∈ scope
    · simp [inline, hscope]
    · simp [inline, hscope, h name (by simp [free]) hscope]
  | definition name value ih =>
    rw [inline, inline, ih h]
  | abstraction parameter body ih =>
    rw [inline, inline, ih]
    -- The parameter joins the scope, so nothing is asked of it although the body may use it freely.
    intro name hname hscope
    rw [List.mem_cons, not_or] at hscope
    exact h name (by simp [free, hname, hscope.1]) hscope.2
  | application operator operand ihOperator ihOperand =>
    rw [inline, inline, ihOperator, ihOperand]
    · exact fun name hname => h name (by simp [free, hname])
    · exact fun name hname => h name (by simp [free, hname])
  | sequence members ih =>
    rw [inline, inline, inlineAll_eq, inlineAll_eq]
    refine congrArg sequence (List.map_congr_left fun member hmember => ih member hmember ?_)
    intro name hname
    refine h name ?_
    rw [free, freeAll_eq]
    exact List.mem_flatMap.mpr ⟨member, hmember, hname⟩

end Term

/-! ### Programs -/

namespace Program

/-- Whether the items hold no definitions but at the top, and each uses only names that are given or
defined by an item before it. -/
def scopedFrom (defined : List String) : List Term → Bool
  | [] => true
  | .definition name value :: rest =>
    value.isExpression && value.free.all defined.contains && scopedFrom (name :: defined) rest
  | item :: rest =>
    item.isExpression && item.free.all defined.contains && scopedFrom defined rest

/-- **Whether a program is scoped**: its definitions stand at the top, and every free name of an item
is defined by an item before it. -/
def isScoped (program : Program) : Bool :=
  scopedFrom [] program.body

/-- The names that a program defines at the top, in order. -/
def definedNames (program : Program) : List String :=
  program.definitions.map Prod.fst

/-- The trees of the items that are not definitions, in order. -/
def inlineItems : List Term → StateM Expansions (List Term)
  | [] => pure []
  | .definition name value :: rest => do
    let _ ← (Term.definition name value).expand []
    inlineItems rest
  | item :: rest => do
    let head ← item.expand []
    let tail ← inlineItems rest
    pure (head :: tail)

/-- **The program without its definitions**: the other items in order, with the trees of the defined
names in place of the names. -/
def inlined (program : Program) : Program :=
  ⟨(inlineItems program.body []).1⟩

variable {defined : List String} {item : Term} {rest : List Term} {expansions : Expansions}

theorem definedNames_definition (name : String) (value : Term) (rest : List Term) :
    definedNames ⟨.definition name value :: rest⟩ = name :: definedNames ⟨rest⟩ := rfl

theorem definedNames_of_isExpression (h : item.isExpression) :
    definedNames ⟨item :: rest⟩ = definedNames ⟨rest⟩ := by
  cases item with
  | definition name value => simp [Term.isExpression] at h
  | _ => rfl

/-- A scoped list of items starts with a definition or with an expression, whose free names are
defined, and goes on scoped. -/
theorem scopedFrom_cons (h : scopedFrom defined (item :: rest)) :
    (∃ name value, item = .definition name value ∧ value.isExpression ∧
      (∀ used ∈ value.free, used ∈ defined) ∧ scopedFrom (name :: defined) rest) ∨
    (item.isExpression ∧ (∀ used ∈ item.free, used ∈ defined) ∧ scopedFrom defined rest) := by
  cases item with
  | definition name value =>
    simp only [scopedFrom, Bool.and_eq_true, List.all_eq_true, List.contains_iff_mem] at h
    exact Or.inl ⟨name, value, rfl, h.1.1, h.1.2, h.2⟩
  | _ =>
    simp only [scopedFrom, Bool.and_eq_true, List.all_eq_true, List.contains_iff_mem] at h
    exact Or.inr ⟨h.1.1, h.1.2, h.2⟩

theorem inlineItems_definition {name : String} {value : Term} (h : value.isExpression) :
    inlineItems (.definition name value :: rest) expansions =
      inlineItems rest ((name, value.inline expansions []) :: expansions) := by
  have hvalue : value.expand [] expansions = (value.inline expansions [], expansions) :=
    Term.expand_of_isExpression value h
  simp only [inlineItems, Term.expand, bind, StateT.bind, hvalue]
  rfl

theorem inlineItems_of_isExpression (h : item.isExpression) :
    inlineItems (item :: rest) expansions =
      (item.inline expansions [] :: (inlineItems rest expansions).1,
        (inlineItems rest expansions).2) := by
  have hitem : item.expand [] expansions = (item.inline expansions [], expansions) :=
    Term.expand_of_isExpression item h
  cases item with
  | definition name value => simp [Term.isExpression] at h
  | _ =>
    simp only [inlineItems, bind, StateT.bind, hitem]
    rfl

/-- **The record keeps what it says of a name** through items that do not define the name. -/
theorem lookup_inlineItems {items : List Term} {name : String} (h : scopedFrom defined items)
    (hname : name ∉ definedNames ⟨items⟩) :
    (inlineItems items expansions).2.lookup name = expansions.lookup name := by
  induction items generalizing defined expansions with
  | nil => rfl
  | cons item rest ih =>
    rcases scopedFrom_cons h with ⟨bound, value, rfl, hvalue, -, hrest⟩ | ⟨hitem, -, hrest⟩
    · rw [definedNames_definition, List.mem_cons, not_or] at hname
      rw [inlineItems_definition hvalue, ih hrest hname.2, List.lookup_cons,
        beq_eq_false_iff_ne.mpr hname.1]
    · rw [definedNames_of_isExpression hitem] at hname
      rw [inlineItems_of_isExpression hitem]
      exact ih hrest hname

end Program

end ParenLambda
