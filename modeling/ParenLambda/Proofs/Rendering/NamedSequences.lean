import ParenLambda.Proofs.Rendering.Sequences

/-!
# Sequences in the backends with named bindings

The two backends with named bindings write in dialects of their own, and the terms of a compiled program
whose definitions stand at the top can all be written in both. So for every sequence of such a program
the theory of `ParenLambda.Dialect.Writable.spells_iff` applies: its text is read as the call that it
stands for if it is joined, and otherwise it is not.
-/

namespace ParenLambda

/-! ### The terms in a program -/

namespace Term

mutual

/-- **The terms in a term**, itself first. -/
def parts : Term → List Term
  | atom name => [atom name]
  | definition name value => definition name value :: value.parts
  | abstraction parameter body => abstraction parameter body :: body.parts
  | application operator operand =>
    application operator operand :: (operator.parts ++ operand.parts)
  | sequence members => sequence members :: partsAll members

/-- The terms in a list of terms. -/
def partsAll : List Term → List Term
  | [] => []
  | term :: rest => term.parts ++ partsAll rest

end

theorem mem_partsAll {node : Term} {terms : List Term} :
    node ∈ partsAll terms ↔ ∃ term ∈ terms, node ∈ term.parts := by
  induction terms with
  | nil => simp [partsAll]
  | cons term rest ih => simp [partsAll, ih]

end Term

namespace Program

/-- **The terms in a program**, at any depth. -/
def parts (program : Program) : List Term :=
  Term.partsAll program.body

/-- Whether the definitions of a program stand at the top only. -/
def definesAtTop (program : Program) : Bool :=
  program.body.all fun
    | .definition _ value => value.isExpression
    | item => item.isExpression

end Program

/-! ### Terms that can be written -/

namespace Dialect

open Backend

variable {dialect : Dialect} {term node : Term}

theorem Writable.of_mem_parts (h : dialect.Writable term) (hnode : node ∈ term.parts) :
    dialect.Writable node := by
  induction h with
  | atom hname =>
    obtain rfl := List.mem_singleton.mp hnode
    exact .atom hname
  | abstraction hparameter hbody ih =>
    rcases List.mem_cons.mp hnode with rfl | hnode
    · exact .abstraction hparameter hbody
    · exact ih hnode
  | application hoperator hoperand ihOperator ihOperand =>
    rcases List.mem_cons.mp hnode with rfl | hnode
    · exact .application hoperator hoperand
    · rcases List.mem_append.mp hnode with hnode | hnode
      · exact ihOperator hnode
      · exact ihOperand hnode
  | sequence hfirst hrest ihFirst ihRest =>
    rcases List.mem_cons.mp hnode with rfl | hnode
    · exact .sequence hfirst hrest
    · rcases List.mem_append.mp hnode with hnode | hnode
      · exact ihFirst hnode
      · obtain ⟨member, hmember, hnode⟩ := Term.mem_partsAll.mp hnode
        exact ihRest member hmember hnode

theorem isName_escape {name : String} (hreserved : Unscored dialect.reserved)
    (hname : Name.isIdentifier name) : dialect.IsName (escape dialect.reserved name) := by
  refine ⟨?_, hreserved.escape_not_mem name⟩
  by_cases hmem : name ∈ dialect.reserved
  · obtain ⟨⟨first, rest, hchars, hlead⟩, hparts⟩ := Name.isIdentifier_iff.mp hname
    rw [escape_of_mem hmem, Name.isIdentifier_iff, String.toList_append]
    refine ⟨⟨first, rest ++ ['_'], by rw [hchars]; rfl, hlead⟩, fun c hc => ?_⟩
    rcases List.mem_append.mp hc with hc | hc
    · exact hparts c hc
    · obtain rfl : c = '_' := by simpa using hc
      exact Text.isIdentifierPart_underscore
  · rwa [escape_of_not_mem hmem]

/-- **A regular term without definitions can be written**, if its names are identifiers. -/
theorem writable_of_isRegular (hreserved : Unscored dialect.reserved) (hregular : term.isRegular)
    (hexpression : term.isExpression) (hnames : ∀ name ∈ term.names, Name.isIdentifier name) :
    dialect.Writable term := by
  induction term using Term.induction with
  | atom name => exact .atom (isName_escape hreserved (hnames name List.mem_cons_self))
  | definition name value _ => cases hexpression
  | abstraction parameter body ih =>
    refine .abstraction (isName_escape hreserved (hnames parameter List.mem_cons_self)) ?_
    exact ih hregular hexpression fun name hname => hnames name (List.mem_cons_of_mem _ hname)
  | application operator operand ihOperator ihOperand =>
    simp only [Term.isRegular, Term.isExpression, Bool.and_eq_true] at hregular hexpression
    exact .application
      (ihOperator hregular.2.1 hexpression.1 fun name hname =>
        hnames name (List.mem_append_left _ hname))
      (ihOperand hregular.2.2 hexpression.2 fun name hname =>
        hnames name (List.mem_append_right _ hname))
  | sequence members ih =>
    rw [Term.isRegular, Bool.and_eq_true, Term.areRegular_iff] at hregular
    rw [Term.isExpression, Term.areExpressions_iff] at hexpression
    have hwritable : ∀ member ∈ members, dialect.Writable member := fun member hmember =>
      ih member hmember (hregular.2 member hmember) (hexpression member hmember) fun name hname =>
        hnames name (Term.mem_namesAll.mpr ⟨member, hmember, hname⟩)
    -- The first member is a binding, and it is no definition.
    rcases members with _ | ⟨_ | _ | ⟨parameter, body⟩ | _ | _, rest⟩
    · cases hregular.1
    · cases hregular.1
    · cases hexpression _ List.mem_cons_self
    · exact .sequence (hwritable _ List.mem_cons_self) fun member hmember =>
        hwritable member (List.mem_cons_of_mem _ hmember)
    · cases hregular.1
    · cases hregular.1

/-- **The items that a dialect can write**: terms that it can write, and definitions of names by such
terms. -/
inductive WritableItem (dialect : Dialect) : Term → Prop
  /-- A definition. -/
  | definition {name : String} {value : Term}
      (hname : dialect.IsName (escape dialect.reserved name)) (hvalue : dialect.Writable value) :
      WritableItem dialect (.definition name value)
  /-- Any other term. -/
  | expression {term : Term} (hterm : dialect.Writable term) : WritableItem dialect term

/-- **Every item of a compiled program whose definitions stand at the top can be written.** -/
theorem writableItem_of_compile {source : String} {program : Program} {item : Term}
    (hreserved : Unscored dialect.reserved) (h : Program.compile source = .ok program)
    (hdefines : program.definesAtTop) (hitem : item ∈ program.body) : dialect.WritableItem item := by
  have hregular : item.isRegular := Term.areRegular_iff.mp (Program.isRegular_of_compile h) item hitem
  have hnames : ∀ name ∈ item.names, Name.isIdentifier name := fun name hname =>
    Program.isIdentifier_of_compile h name (Term.mem_namesAll.mpr ⟨item, hitem, hname⟩)
  have hexpression := List.all_eq_true.mp hdefines item hitem
  cases item with
  | definition name value =>
    refine .definition (isName_escape hreserved (hnames name List.mem_cons_self)) ?_
    exact writable_of_isRegular hreserved hregular hexpression fun name hname =>
      hnames name (List.mem_cons_of_mem _ hname)
  | _ => exact .expression (writable_of_isRegular hreserved hregular hexpression hnames)

/-- **Every sequence of a compiled program whose definitions stand at the top can be written.** -/
theorem writable_of_compile {source : String} {program : Program} {members : List Term}
    (hreserved : Unscored dialect.reserved) (h : Program.compile source = .ok program)
    (hdefines : program.definesAtTop) (hnode : .sequence members ∈ program.parts) :
    dialect.Writable (.sequence members) := by
  obtain ⟨item, hitem, hnode⟩ := Term.mem_partsAll.mp hnode
  cases writableItem_of_compile hreserved h hdefines hitem with
  | definition hname hvalue =>
    rcases List.mem_cons.mp hnode with hdefinition | hnode
    · cases hdefinition
    · exact hvalue.of_mem_parts hnode
  | expression hterm => exact hterm.of_mem_parts hnode

/-! ### The two dialects -/

/-- **The dialect of JavaScript**: `(x => BODY)` and `OPERATOR(OPERAND)`. -/
def javaScript : Dialect where
  reserved := JavaScript.reserved
  before := []
  behind := [' ', '=', '>', ' ']
  gap? := none

/-- **The dialect of Python**: `(lambda x: BODY)` and `(OPERATOR)(OPERAND)`. -/
def python : Dialect where
  reserved := Python.reserved
  before := ['l', 'a', 'm', 'b', 'd', 'a', ' ']
  behind := [':', ' ']
  gap? := some []

theorem governs_javaScript : javaScript.Governs JavaScript.rules where
  atom _ _ := rfl
  abstraction parameter body := by
    change (JavaScript.function parameter body).toList = _
    simp [JavaScript.function, JavaScript.identifier, heading, javaScript]
  application operator operand := by
    change (JavaScript.call operator operand).toList = _
    simp [JavaScript.call, Dialect.operator, javaScript]
  sequence _ := rfl
  unscored := JavaScript.unscored_reserved

theorem governs_python : python.Governs Python.rules where
  atom _ _ := rfl
  abstraction parameter body := by
    change ("(lambda " ++ Python.identifier parameter ++ ": " ++ body ++ ")").toList = _
    simp [Python.identifier, heading, python]
  application operator operand := by
    change ("(" ++ operator ++ ")(" ++ operand ++ ")").toList = _
    simp [Dialect.operator, python]
  sequence _ := rfl
  unscored := Python.unscored_reserved

/-! ### What becomes of the sequences of a program -/

/-- **What a dialect makes of a sequence.** -/
structure ReadsSequence (dialect : Dialect) (rules : Rules Unit) (first : Term) (rest : List Term) :
    Prop where
  /-- The text should be read as the first member, called with one other member after the other. -/
  reading_eq : dialect.reading (.sequence (first :: rest)) =
    .spine (dialect.reading first) (rest.map dialect.reading)
  /-- It is read so exactly if the sequence is joined. -/
  spells_iff : ∀ scope,
    dialect.Spells (dialect.reading (.sequence (first :: rest)))
      (rules.text scope (.sequence (first :: rest)) ()).1.toList ↔
        (Term.sequence (first :: rest)).isJoined
  /-- It is read in one way at most. -/
  unique : ∀ scope term term',
    dialect.Spells term (rules.text scope (.sequence (first :: rest)) ()).1.toList →
    dialect.Spells term' (rules.text scope (.sequence (first :: rest)) ()).1.toList → term = term'

theorem readsSequence_of_writable {rules : Rules Unit} {first : Term} {rest : List Term}
    (hrules : dialect.Governs rules) (h : dialect.Writable (.sequence (first :: rest))) :
    dialect.ReadsSequence rules first rest :=
  ⟨reading_sequence dialect first rest, fun _ => h.spells_iff hrules,
    fun _ _ _ hterm hterm' => hterm.unique hterm'⟩

/-- A text that opens a parenthesis and does not end with a closing one is no expression. -/
theorem not_spells_of_ends_in_name (left right : List Char) {c : Char} (hc : c ≠ ')')
    (term : Term) : ¬dialect.Spells term (left ++ '(' :: (right ++ [c])) := by
  have hlast : ∀ front, left ++ '(' :: (right ++ [c]) ≠ front ++ [')'] := by
    intro front heq
    have hconcat : (left ++ '(' :: right) ++ [c] = front ++ [')'] := by
      simpa using heq
    exact hc (List.singleton_inj.mp (List.append_inj' hconcat rfl).2)
  intro h
  generalize htext : left ++ '(' :: (right ++ [c]) = text at h hlast
  cases h with
  | name hname => exact hname.ne_append left (right ++ [c]) htext.symm
  | @function parameter body text _ _ => exact hlast ('(' :: (dialect.heading parameter ++ text)) rfl
  | @call _ _ left right _ _ => exact hlast (dialect.operator left ++ '(' :: right) (by simp)
  | @callFunction _ _ parameter left right _ _ _ =>
    exact hlast (left ++ '(' :: (dialect.heading parameter ++ right)) (by simp)

end Dialect

namespace Program

open Dialect

/-- **What becomes of the sequences of a program.** In a compiled program whose definitions stand at the
top, a sequence is evaluated as the call of its first member with one other member after the other. In
both backends with named bindings its text is read as that call, with names escaped, exactly if it is
joined: if each member but the first is a function, there and in the sequences inside. No text is read
in two ways. -/
theorem sequences_read {source : String} {program : Program} {first : Term} {rest : List Term}
    (h : compile source = .ok program) (hdefines : program.definesAtTop)
    (hnode : .sequence (first :: rest) ∈ program.parts) :
    javaScript.ReadsSequence JavaScript.rules first rest ∧
    python.ReadsSequence Python.rules first rest ∧
    ∀ globals scope value,
      (∃ depth, (Term.sequence (first :: rest)).eval globals depth scope = .ok value) ↔
        ∃ depth, (Term.spine first rest).eval globals depth scope = .ok value := by
  refine ⟨readsSequence_of_writable governs_javaScript ?_,
    readsSequence_of_writable governs_python ?_, fun globals scope value => ?_⟩
  · exact writable_of_compile JavaScript.unscored_reserved h hdefines hnode
  · exact writable_of_compile Python.unscored_reserved h hdefines hnode
  · rw [← Computation.ends_ofTerm_iff, ← Computation.ends_ofTerm_iff]
    exact Computation.ends_sequence_iff

/-- A joined sequence of three functions, one of them with a parameter that JavaScript reserves: its
texts are those of two calls, which have the value of the sequence. -/
theorem sequences_read_threeFunctions :
    compile "((λ x x) (λ y y) (λ new new))" =
        .ok ⟨[.sequence [.abstraction "x" (.atom "x"), .abstraction "y" (.atom "y"),
          .abstraction "new" (.atom "new")]]⟩ ∧
      javaScript.Spells
        (.application (.application (.abstraction "x" (.atom "x")) (.abstraction "y" (.atom "y")))
          (.abstraction "new_" (.atom "new_")))
        "(x => x)(y => y)(new_ => new_)".toList ∧
      python.Spells
        (.application (.application (.abstraction "x" (.atom "x")) (.abstraction "y" (.atom "y")))
          (.abstraction "new" (.atom "new")))
        "(lambda x: x)(lambda y: y)(lambda new: new)".toList ∧
      ∃ depth, (Term.application
        (.application (.abstraction "x" (.atom "x")) (.abstraction "y" (.atom "y")))
        (.abstraction "new" (.atom "new"))).eval .empty depth .empty =
          .ok (.closure "new" (.atom "new") .empty) := by
  have hcompile : compile "((λ x x) (λ y y) (λ new new))" =
      .ok ⟨[.sequence [.abstraction "x" (.atom "x"), .abstraction "y" (.atom "y"),
        .abstraction "new" (.atom "new")]]⟩ := by
    rw [compile_eq]
    rfl
  obtain ⟨hjavaScript, hpython, heval⟩ := sequences_read hcompile rfl List.mem_cons_self
  exact ⟨hcompile, (hjavaScript.spells_iff []).mpr rfl, (hpython.spells_iff []).mpr rfl,
    (heval _ _ _).mp ⟨5, rfl⟩⟩

/-- **Sequences that are not joined are misread.** The text of the first one is no expression, in either
backend; the text of the second one is an expression, but it is read as another call. -/
theorem sequences_misread :
    (compile "((λ y k) z)" =
        .ok ⟨[.sequence [.abstraction "y" (.atom "k"), .atom "z"]]⟩ ∧
      Backend.javaScript.render ⟨[.sequence [.abstraction "y" (.atom "k"), .atom "z"]]⟩ none =
        "(y => k)z;" ∧
      Backend.python.render ⟨[.sequence [.abstraction "y" (.atom "k"), .atom "z"]]⟩ none =
        "(lambda y: k)z" ∧
      (∀ term, ¬javaScript.Spells term "(y => k)z".toList) ∧
      ∀ term, ¬python.Spells term "(lambda y: k)z".toList) ∧
    (compile "((λ x x) ((λ y y) (λ z z)))" =
        .ok ⟨[.sequence [.abstraction "x" (.atom "x"),
          .sequence [.abstraction "y" (.atom "y"), .abstraction "z" (.atom "z")]]]⟩ ∧
      Backend.javaScript.render
          ⟨[.sequence [.abstraction "x" (.atom "x"),
            .sequence [.abstraction "y" (.atom "y"), .abstraction "z" (.atom "z")]]]⟩ none =
        "(x => x)(y => y)(z => z);" ∧
      javaScript.Spells
        (.application (.application (.abstraction "x" (.atom "x")) (.abstraction "y" (.atom "y")))
          (.abstraction "z" (.atom "z")))
        "(x => x)(y => y)(z => z)".toList) := by
  refine ⟨⟨?_, ?_, ?_, fun term => ?_, fun term => ?_⟩, ?_, ?_, ?_⟩
  · rw [compile_eq]
    rfl
  · simp only [Backend.javaScript, Backend.withPrelude, Rules.render_eq]
    decide
  · simp only [Backend.python, Backend.withPrelude, Rules.render_eq]
    decide
  · exact not_spells_of_ends_in_name [] "y => k)".toList (by decide) term
  · exact not_spells_of_ends_in_name [] "lambda y: k)".toList (by decide) term
  · rw [compile_eq]
    rfl
  · simp only [Backend.javaScript, Backend.withPrelude, Rules.render_eq]
    decide
  · have hx : javaScript.IsName "x" := ⟨by decide, by decide⟩
    have hy : javaScript.IsName "y" := ⟨by decide, by decide⟩
    have hz : javaScript.IsName "z" := ⟨by decide, by decide⟩
    exact .callFunction (.callFunction (.function hx (.name hx)) hy (.name hy)) hz (.name hz)

end Program

end ParenLambda
