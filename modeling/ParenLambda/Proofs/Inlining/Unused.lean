import ParenLambda.Proofs.BaseLibrary.Sources
import ParenLambda.Proofs.Inlining.Texts

/-!
# Definitions that leave no trace

The backends without definitions drag nothing along: of the base library, only what a program uses gets
into the text. Two renderings are compared here, of a program by itself and of the program behind the
library. The walk through the program starts with different records, an empty one and one with all
names of the library, and the two agree on every name that is not the library's. Whenever the program
defines a name of the library itself, they agree on this name too, and for good. So the renderings can
only differ where a name of the library is used, is not bound, and has not been defined by the program
before; if there is no such place, they are the same (`ParenLambda.Assembly.inlined_unused_base`).
-/

namespace ParenLambda

/-! ### The visits of a program -/

/-- **What the walk through a program comes to**, among the names. -/
inductive Visit where
  /-- A use of a name, which may be bound by an enclosing abstraction. -/
  | use (name : String) (bound : Bool)
  /-- A definition of a name. -/
  | define (name : String)
  deriving DecidableEq

/-- A table that writes nothing, and notes which names it has been asked for. -/
def Visit.rules : Rules (List Visit) where
  start := []
  program _ _ := ""
  definition name _ := do
    modify (· ++ [.define name])
    pure ""
  abstraction _ _ := pure ""
  application _ _ := pure ""
  atom name bound := do
    modify (· ++ [.use name bound])
    pure ""

/-- **The visits of a program**, in the order of the walk. -/
def Program.visits (program : Program) : List Visit :=
  (Visit.rules.items program.body []).2

namespace Term

mutual

/-- The visits of a term inside abstractions with the parameters `scope`: a definition is visited after
its value. -/
def visits (scope : List String) : Term → List Visit
  | atom name => [.use name (scope.contains name)]
  | definition name value => visits scope value ++ [.define name]
  | abstraction parameter body => visits (parameter :: scope) body
  | application operator operand => visits scope operator ++ visits scope operand
  | sequence members => visitsAll scope members

/-- The visits of a list of terms, in order. -/
def visitsAll (scope : List String) : List Term → List Visit
  | [] => []
  | term :: rest => visits scope term ++ visitsAll scope rest

end

theorem texts_visits_of_forall {scope : List String} {members : List Term}
    (h : ∀ member ∈ members, ∀ earlier,
      (Visit.rules.text scope member earlier).2 = earlier ++ member.visits scope)
    (earlier : List Visit) :
    (Visit.rules.texts scope members earlier).2 = earlier ++ visitsAll scope members := by
  induction members generalizing earlier with
  | nil => exact (List.append_nil earlier).symm
  | cons member rest ih =>
    have hrest := ih fun other hother => h other (List.mem_cons_of_mem _ hother)
    rw [Rules.texts_cons, hrest, h member List.mem_cons_self, visitsAll, List.append_assoc]

/-- The walk through a term notes the visits of the term. -/
theorem text_visits (scope : List String) (term : Term) (earlier : List Visit) :
    (Visit.rules.text scope term earlier).2 = earlier ++ term.visits scope := by
  induction term using Term.induction generalizing scope earlier with
  | atom name =>
    rw [Rules.text]
    rfl
  | definition name value ih =>
    rw [Rules.text_definition, visits, ← List.append_assoc, ← ih]
    rfl
  | abstraction parameter body ih =>
    rw [Rules.text_abstraction, visits, ← ih]
    rfl
  | application operator operand ihOperator ihOperand =>
    rw [Rules.text_application, visits, ← List.append_assoc, ← ihOperator, ← ihOperand]
    rfl
  | sequence members ih =>
    rw [Rules.text_sequence, visits,
      ← texts_visits_of_forall (fun member hmember => ih member hmember scope) earlier]
    rfl

end Term

theorem Program.visits_eq (program : Program) : program.visits = Term.visitsAll [] program.body := by
  rw [visits, Rules.items_eq]
  exact Term.texts_visits_of_forall (fun member _ => Term.text_visits [] member) []

/-! ### Doing without names -/

namespace Visit

variable {names : List String} {before visits rest : List Visit}

/-- **Visits are supplied with names**: every use of one of the names that is not bound comes after a
definition of it. -/
def Supplied (names : List String) (before visits : List Visit) : Prop :=
  ∀ earlier name later, visits = earlier ++ .use name false :: later → name ∈ names →
    .define name ∈ before ++ earlier

theorem Supplied.of_append (h : Supplied names before (visits ++ rest)) :
    Supplied names before visits ∧ Supplied names (before ++ visits) rest := by
  constructor
  · rintro earlier name later rfl
    exact h earlier name (later ++ rest) (by simp)
  · rintro earlier name later rfl
    rw [List.append_assoc]
    exact h (visits ++ earlier) name later (by simp)

theorem supplied_cons {visit : Visit} :
    Supplied names before (visit :: rest) ↔
      (∀ name ∈ names, visit = .use name false → .define name ∈ before) ∧
        Supplied names (before ++ [visit]) rest := by
  constructor
  · intro h
    refine ⟨?_, (Supplied.of_append h).2⟩
    rintro name hname rfl
    simpa using h [] name rest rfl hname
  · rintro ⟨hvisit, hrest⟩ earlier name later heq hname
    cases earlier with
    | nil =>
      obtain ⟨rfl, -⟩ := List.cons.inj heq
      simpa using hvisit name hname rfl
    | cons first earlier =>
      obtain ⟨rfl, rfl⟩ := List.cons.inj heq
      simpa using hrest earlier name later rfl hname

/-- Whether visits are supplied with names. -/
def isSupplied (names : List String) (before : List Visit) : List Visit → Bool
  | [] => true
  | visit :: rest =>
    names.all (fun name => visit != .use name false || before.contains (.define name)) &&
      isSupplied names (before ++ [visit]) rest

theorem isSupplied_iff : isSupplied names before visits ↔ Supplied names before visits := by
  induction visits generalizing before with
  | nil => simp [isSupplied, Supplied]
  | cons visit rest ih =>
    rw [isSupplied, Bool.and_eq_true, ih, supplied_cons]
    refine and_congr_left' ?_
    simp [imp_iff_not_or]

instance : Decidable (Supplied names before visits) :=
  decidable_of_iff _ isSupplied_iff

end Visit

/-- **A program does without names**: wherever it uses one of them, the name is bound by an enclosing
abstraction, or the program has defined it before. -/
def Program.DoesWithout (names : List String) (program : Program) : Prop :=
  Visit.Supplied names [] program.visits

/-! ### Two records -/

/-- **Two records agree**, but for names that no visit has defined yet. -/
def Expansions.Agree (names : List String) (before : List Visit) (left right : Expansions) : Prop :=
  ∀ name, (name ∈ names → .define name ∈ before) → left.lookup name = right.lookup name

namespace Term

variable {names : List String} {left right : Expansions}

theorem expandAll_agree_of_forall {scope : List String} {members : List Term}
    (hmembers : ∀ member ∈ members, ∀ before left right,
      Visit.Supplied names before (member.visits scope) → Expansions.Agree names before left right →
      (member.expand scope left).1 = (member.expand scope right).1 ∧
        Expansions.Agree names (before ++ member.visits scope) (member.expand scope left).2
          (member.expand scope right).2)
    {before : List Visit} (hsupplied : Visit.Supplied names before (visitsAll scope members))
    (hagree : Expansions.Agree names before left right) :
    (expandAll scope members left).1 = (expandAll scope members right).1 ∧
      Expansions.Agree names (before ++ visitsAll scope members) (expandAll scope members left).2
        (expandAll scope members right).2 := by
  induction members generalizing before left right with
  | nil =>
    rw [visitsAll, List.append_nil]
    exact ⟨rfl, hagree⟩
  | cons member rest ih =>
    rw [visitsAll] at hsupplied
    obtain ⟨hmember, hrest⟩ := hsupplied.of_append
    obtain ⟨hhead, hmiddle⟩ := hmembers member List.mem_cons_self before left right hmember hagree
    obtain ⟨htail, hafter⟩ :=
      ih (fun other hother => hmembers other (List.mem_cons_of_mem _ hother)) hrest hmiddle
    rw [expandAll_cons, expandAll_cons, visitsAll, ← List.append_assoc]
    exact ⟨by rw [hhead, htail], hafter⟩

/-- **Records that agree lead to the same tree**, and agree afterwards. -/
theorem expand_agree (scope : List String) (term : Term) (before : List Visit)
    (left right : Expansions) (hsupplied : Visit.Supplied names before (term.visits scope))
    (hagree : Expansions.Agree names before left right) :
    (term.expand scope left).1 = (term.expand scope right).1 ∧
      Expansions.Agree names (before ++ term.visits scope) (term.expand scope left).2
        (term.expand scope right).2 := by
  induction term using Term.induction generalizing scope before left right with
  | atom name =>
    rw [expand_atom, expand_atom, visits]
    constructor
    · cases hbound : scope.contains name with
      | true => rfl
      | false =>
        -- Nothing has been visited in this term before its only name.
        rw [visits, hbound] at hsupplied
        have hname := hsupplied [] name [] rfl
        rw [List.append_nil] at hname
        simp only [hagree name hname]
    · intro other hother
      exact hagree other fun hmem => by simpa using hother hmem
  | definition name value ih =>
    rw [visits] at hsupplied
    obtain ⟨htree, hafter⟩ := ih scope before left right hsupplied.of_append.1 hagree
    rw [expand_definition, expand_definition, visits]
    refine ⟨rfl, fun other hother => ?_⟩
    -- The name that is defined gets the same tree in both records, library name or not.
    rw [List.lookup_cons, List.lookup_cons, htree]
    cases hsame : other == name with
    | true => rfl
    | false =>
      have hne : other ≠ name := beq_eq_false_iff_ne.mp hsame
      exact hafter other fun hmem => by simpa [hne] using hother hmem
  | abstraction parameter body ih =>
    rw [visits] at hsupplied
    obtain ⟨htree, hafter⟩ := ih (parameter :: scope) before left right hsupplied hagree
    rw [expand_abstraction, expand_abstraction, visits]
    exact ⟨by rw [htree], hafter⟩
  | application operator operand ihOperator ihOperand =>
    rw [visits] at hsupplied
    obtain ⟨hoperator, hoperand⟩ := hsupplied.of_append
    obtain ⟨hfirst, hmiddle⟩ := ihOperator scope before left right hoperator hagree
    obtain ⟨hsecond, hafter⟩ := ihOperand scope _ _ _ hoperand hmiddle
    rw [expand_application, expand_application, visits, ← List.append_assoc]
    exact ⟨by rw [hfirst, hsecond], hafter⟩
  | sequence members ih =>
    rw [visits] at hsupplied
    obtain ⟨htrees, hafter⟩ := expandAll_agree_of_forall
      (fun member hmember => ih member hmember scope) hsupplied hagree
    rw [expand_sequence, expand_sequence, visits]
    exact ⟨by rw [htrees], hafter⟩

end Term

/-! ### Programs behind definitions -/

namespace Term

theorem expandAll_append (scope : List String) (items rest : List Term) (expansions : Expansions) :
    expandAll scope (items ++ rest) expansions =
      ((expandAll scope items expansions).1 ++
        (expandAll scope rest (expandAll scope items expansions).2).1,
        (expandAll scope rest (expandAll scope items expansions).2).2) := by
  induction items generalizing expansions with
  | nil => rfl
  | cons item items ih =>
    rw [List.cons_append, expandAll_cons, ih, expandAll_cons, List.cons_append]

end Term

namespace Program

/-- A program that does nothing but define names, by terms that define none. -/
def IsLibrary (program : Program) : Prop :=
  ∀ item ∈ program.body, ∃ name value, item = .definition name value ∧ value.isExpression

/-- The walk through a library leaves nothing but empty sequences, and a record of its names. -/
theorem expandAll_library {items : List Term} (h : IsLibrary ⟨items⟩) (expansions : Expansions) :
    (Term.expandAll [] items expansions).1 = List.replicate items.length (.sequence []) ∧
      ∀ name, name ∉ definedNames ⟨items⟩ →
        (Term.expandAll [] items expansions).2.lookup name = expansions.lookup name := by
  induction items generalizing expansions with
  | nil => exact ⟨rfl, fun _ _ => rfl⟩
  | cons item rest ih =>
    obtain ⟨defined, value, rfl, hvalue⟩ := h item List.mem_cons_self
    have hrest : IsLibrary ⟨rest⟩ := fun other hother => h other (List.mem_cons_of_mem _ hother)
    have hexpand : value.expand [] expansions = (value.inline expansions [], expansions) :=
      value.expand_of_isExpression hvalue
    obtain ⟨htrees, hlookup⟩ := ih hrest ((defined, value.inline expansions []) :: expansions)
    rw [Term.expandAll_cons, Term.expand_definition, hexpand, htrees]
    refine ⟨rfl, fun name hname => ?_⟩
    rw [definedNames_definition, List.mem_cons, not_or] at hname
    rw [hlookup name hname.2, List.lookup_cons, beq_eq_false_iff_ne.mpr hname.1]

/-- **The trees of a program behind a library** that it does without are those of the program by
itself, behind the empty sequences that the library leaves. -/
theorem expanded_behind {library program : Program} (hlibrary : library.IsLibrary)
    (h : program.DoesWithout library.definedNames) :
    expanded ⟨library.body ++ program.body⟩ =
      List.replicate library.body.length (.sequence []) ++ program.expanded := by
  obtain ⟨htrees, hlookup⟩ := expandAll_library hlibrary []
  have hagree : Expansions.Agree library.definedNames []
      (Term.expandAll [] library.body []).2 [] :=
    fun name hname => hlookup name fun hmem => List.not_mem_nil (hname hmem)
  rw [DoesWithout, visits_eq] at h
  have hprogram := Term.expandAll_agree_of_forall
    (fun member _ => Term.expand_agree [] member) h hagree
  rw [expanded, Term.expandAll_append, htrees, hprogram.1, expanded]

variable {rules : Rules Recorded} {plain : Rules Unit}

theorem join_replicate_empty (n : Nat) : String.join (List.replicate n "") = "" := by
  induction n with
  | zero => rfl
  | succ n ih => rw [List.replicate_succ, String.join_cons, ih, String.append_empty]

theorem texts_behind (hrules : rules.Inlines plain) {library program : Program}
    (hlibrary : library.IsLibrary) (h : program.DoesWithout library.definedNames) :
    (rules.texts [] (library.body ++ program.body) []).1 =
      List.replicate library.body.length "" ++ (rules.texts [] program.body []).1 := by
  have hempty : (plain.item (.sequence []) ()).1 = "" := by
    rw [Rules.item_eq]
    exact hrules.plainText_sequence []
  rw [texts_expanded hrules ⟨library.body ++ program.body⟩, texts_expanded hrules program,
    expanded_behind hlibrary h, List.map_append, List.map_replicate, hempty]

/-- **JavaScript without definitions** and **the notation of the lambda calculus** have no trace of a
library that a program does without. -/
theorem render_behind {library program : Program} (hlibrary : library.IsLibrary)
    (h : program.DoesWithout library.definedNames) (prelude : Option String) :
    Backend.javaScriptInline.render ⟨library.body ++ program.body⟩ prelude =
        Backend.javaScriptInline.render program prelude ∧
      Backend.church.render ⟨library.body ++ program.body⟩ prelude =
        Backend.church.render program prelude := by
  have hJavaScript : ∀ program : Program, JavaScript.inliningRules.render program =
      ";\n".intercalate ((JavaScript.inliningRules.texts [] program.body []).1.filter
        fun text => !text.isEmpty) :=
    fun program => JavaScript.inliningRules.render_eq program
  have hchurch : ∀ program : Program, Church.rules.render program =
      String.join (Church.rules.texts [] program.body []).1 :=
    fun program => Church.rules.render_eq program
  constructor
  · have htexts := texts_behind JavaScript.inliningRules_inlines hlibrary h
    refine congrArg (Backend.withPrelude prelude) ?_
    rw [hJavaScript, hJavaScript, htexts]
    simp
  · have htexts := texts_behind Church.rules_inlines hlibrary h
    refine (hchurch _).trans (Eq.trans ?_ (hchurch program).symm)
    rw [htexts, String.join_append, join_replicate_empty, String.empty_append]

end Program

theorem BaseLibrary.isLibrary_program : program.IsLibrary := by
  have hall : definitions.all (fun entry => entry.2.isExpression) = true := by decide
  intro item hitem
  obtain ⟨entry, hentry, rfl⟩ := List.mem_map.mp hitem
  exact ⟨entry.1, entry.2, rfl, List.all_eq_true.mp hall entry hentry⟩

namespace Assembly

/-- **A base library that is not used leaves no trace in inlined text.** The base library compiles, and
all its items are definitions. If a user's source compiles to a program that does without the names of
the library, it compiles behind the library, and JavaScript without definitions and the notation of the
lambda calculus are the same text for it behind the library and by itself. -/
theorem inlined_unused_base (name user : String) (program : Program)
    (hcompile : Program.compile user = .ok program)
    (hunused : program.DoesWithout BaseLibrary.program.definedNames) :
    Program.compile BaseLibrary.text = .ok BaseLibrary.program ∧
    (∀ item ∈ BaseLibrary.program.body, ∃ defined value, item = .definition defined value) ∧
    ∃ behind, (make name user true).compile = .ok behind ∧
      (make name user false).compile = .ok program ∧
      ∀ prelude,
        Backend.javaScriptInline.render behind prelude =
          Backend.javaScriptInline.render program prelude ∧
        Backend.church.render behind prelude = Backend.church.render program prelude := by
  refine ⟨BaseLibrary.compile_text, fun item hitem => ?_, _, BaseLibrary.compile_behind hcompile, ?_,
    Program.render_behind BaseLibrary.isLibrary_program hunused⟩
  · obtain ⟨defined, value, hdefinition, -⟩ := BaseLibrary.isLibrary_program item hitem
    exact ⟨defined, value, hdefinition⟩
  · rw [compile_alone, hcompile]

/-- A source that binds one name of the library, defines another before it uses it, and is the same
text either way. -/
theorem inlined_unused_base_rebound :
    Program.compile "(let Length (λ + +)) (Length x)" =
        .ok ⟨[.definition "Length" (.abstraction "T_PLUS" (.atom "T_PLUS")),
          .application (.atom "Length") (.atom "x")]⟩ ∧
      Program.DoesWithout BaseLibrary.program.definedNames
        ⟨[.definition "Length" (.abstraction "T_PLUS" (.atom "T_PLUS")),
          .application (.atom "Length") (.atom "x")]⟩ ∧
      ∃ behind, (make "main.sel" "(let Length (λ + +)) (Length x)" true).compile = .ok behind ∧
        Backend.church.render behind none = "((λ T_PLUS.T_PLUS)) (x)" := by
  have hcompile : Program.compile "(let Length (λ + +)) (Length x)" =
      .ok ⟨[.definition "Length" (.abstraction "T_PLUS" (.atom "T_PLUS")),
        .application (.atom "Length") (.atom "x")]⟩ := by
    rw [Program.compile_eq]
    rfl
  have hunused : Program.DoesWithout BaseLibrary.program.definedNames
      ⟨[.definition "Length" (.abstraction "T_PLUS" (.atom "T_PLUS")),
        .application (.atom "Length") (.atom "x")]⟩ := by
    rw [Program.DoesWithout, Program.visits_eq]
    decide
  obtain ⟨-, -, behind, hbehind, -, hrender⟩ := inlined_unused_base "main.sel" _ _ hcompile hunused
  refine ⟨hcompile, hunused, behind, hbehind, (hrender none).2.trans ?_⟩
  decide +kernel

end Assembly

end ParenLambda
