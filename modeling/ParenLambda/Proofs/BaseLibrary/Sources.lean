import ParenLambda.Proofs.BaseLibrary.Terms

/-!
# Sources behind the base library

What a source answers behind the base library (`ParenLambda.BaseLibrary.Answers`) goes through all of
the program: assembling, scanning, reading, compiling, running the library, evaluating the source and
decoding the value. The rules of this file reduce it to what the functions of the library do. A source
**expresses** a property if it is the text of a term whose value has the property, and it does if it is a
symbol of the library that means such a value, or if it applies one expression to another. So a source
expresses something by its shape, and its answer is read off what it expresses
(`ParenLambda.BaseLibrary.Expresses.answers`).
-/

namespace ParenLambda

/-! ### Texts of terms -/

/-- **A symbol stands for a name**: it is scanned as one atom, with that name. -/
structure Name.IsSymbol (name symbol : String) : Prop where
  /-- There is something to write. -/
  ne_empty : symbol ≠ ""
  /-- No character of the symbol ends a run of characters. -/
  isOrdinary : symbol.toList.all Fragment.isOrdinary
  /-- The symbol does not introduce a binding. -/
  not_introducer : symbol ∉ ["let", "lambda", "λ"]
  /-- The name is what scanning makes of the symbol. -/
  canonical_eq : canonical symbol = name

instance (name symbol : String) : Decidable (Name.IsSymbol name symbol) :=
  decidable_of_iff
    (symbol ≠ "" ∧ symbol.toList.all Fragment.isOrdinary ∧ symbol ∉ ["let", "lambda", "λ"] ∧
      Name.canonical symbol = name)
    ⟨fun h => ⟨h.1, h.2.1, h.2.2.1, h.2.2.2⟩,
      fun h => ⟨h.ne_empty, h.isOrdinary, h.not_introducer, h.canonical_eq⟩⟩

namespace Term

theorem isReadFrom_symbol {name symbol : String} (h : Name.IsSymbol name symbol) :
    (atom name).IsReadFrom symbol := by
  intro rest hrest
  have hne : symbol.toList ≠ [] := fun heq => h.ne_empty (String.toList_eq_nil_iff.mp heq)
  have hordinary := List.all_eq_true.mp h.isOrdinary
  rw [Token.ofText_word hne hordinary hrest, Fragment.token_symbol hordinary h.not_introducer,
    h.canonical_eq]
  rfl

theorem IsReadFrom.abstraction {parameter : String} (hparameter : Name.Plain parameter)
    {body : Term} {text : String} (hbody : body.IsReadFrom text) :
    (abstraction parameter body).IsReadFrom ("(λ " ++ parameter ++ " " ++ text ++ ")") := by
  intro rest hrest
  have hchars : ("(λ " ++ parameter ++ " " ++ text ++ ")").toList ++ rest =
      '(' :: (Introducer.abstraction.word.toList ++
        ' ' :: (parameter.toList ++ ' ' :: (text.toList ++ ')' :: rest))) := by
    simp [Introducer.word]
  rw [hchars, ofText_binding .abstraction hparameter hbody, toForm]

end Term

/-- A regular term is compiled from every text it is read from. -/
theorem Program.compile_of_isReadFrom {term : Term} (hregular : term.isRegular) {source : String}
    (hsource : term.IsReadFrom source) : compile source = .ok ⟨[term]⟩ := by
  have hterms : isRegular ⟨[term]⟩ := Term.areRegular_iff.mpr (by simpa using hregular)
  refine compile_of_tokens hterms ?_
  have htokens := hsource [] Fragment.broken_nil
  rwa [List.append_nil, Token.ofText_nil] at htokens

namespace BaseLibrary

/-! ### Answers -/

variable {α : Type} {decode : Scope → Nat → Value → Except Halt α} {answer : α}

/-- **The answer of a source behind the base library**, in a file of any name: it compiles, and its
program has the answer. -/
def Answers (source : String) (decode : Scope → Nat → Value → Except Halt α) (answer : α) : Prop :=
  ∀ name, ∃ program, (Assembly.make name source true).compile = .ok program ∧
    program.Answers decode answer

/-- **A source has one number for an answer at most.** -/
theorem Answers.toNat_unique {source : String} {m n : Nat} (hm : Answers source Value.toNat m)
    (hn : Answers source Value.toNat n) : m = n := by
  obtain ⟨program, hcompile, hanswer⟩ := hm ""
  obtain ⟨program', hcompile', hanswer'⟩ := hn ""
  obtain rfl : program = program' := Except.ok.inj (hcompile.symm.trans hcompile')
  exact hanswer.toNat_unique hanswer'

theorem compile_behind {name source : String} {user : Program}
    (h : Program.compile source = .ok user) :
    (Assembly.make name source true).compile = .ok ⟨program.body ++ user.body⟩ := by
  have hbehind := Program.compile_lineFeed compile_text source
  rw [h] at hbehind
  exact hbehind

/-- An item behind the base library has an answer if it attains it, and not otherwise. -/
theorem answers_behind_iff {term : Term} :
    Program.Answers ⟨program.body ++ [term]⟩ decode answer ↔
      (Computation.ofTerm .empty term).Attains globals fun value =>
        ∃ depth, decode globals depth value = .ok answer := by
  obtain ⟨machine, hrun, hglobals⟩ := exists_run
  rw [← hglobals]
  exact Program.answers_behind_iff hrun (Machine.last_of_steps hrun)

/-! ### Texts that stand for terms -/

/-- **A source stands for a term**: it is the text of a term that attains just the same. -/
def Stands (source : String) (term : Term) : Prop :=
  ∃ read : Term, read.isRegular ∧ read.IsReadFrom source ∧
    ∀ property, (Computation.ofTerm .empty read).Attains globals property ↔
      (Computation.ofTerm .empty term).Attains globals property

theorem stands_of_isReadFrom {source : String} {term : Term} (hregular : term.isRegular)
    (hread : term.IsReadFrom source) : Stands source term :=
  ⟨term, hregular, hread, fun _ => Iff.rfl⟩

/-- One source applied to another. -/
theorem Stands.application {left right : String} {operator operand : Term}
    (hleft : Stands left operator) (hright : Stands right operand) :
    Stands ("(" ++ left ++ " " ++ right ++ ")") (.application operator operand) := by
  obtain ⟨readLeft, hregularLeft, hreadLeft, hattainsLeft⟩ := hleft
  obtain ⟨readRight, hregularRight, hreadRight, hattainsRight⟩ := hright
  have hread := hreadLeft.application hreadRight
  cases hbinding : readLeft.isBinding with
  | false =>
    refine ⟨.application readLeft readRight, ?_, hread, fun property => ?_⟩
    · simp [Term.isRegular, hbinding, hregularLeft, hregularRight]
    · simp [hattainsLeft, hattainsRight]
  | true =>
    -- A group that a binding leads is a sequence: another term, but of the same tokens and value.
    refine ⟨.sequence [readLeft, readRight], ?_, hread, fun property => ?_⟩
    · simp [Term.isRegular, Term.areRegular, hbinding, hregularLeft, hregularRight]
    · simp [hattainsLeft, hattainsRight]

theorem Stands.congr {source text : String} {term : Term} (h : Stands source term)
    (heq : text.toList = source.toList) : Stands text term := by
  rwa [String.toList_injective heq]

/-- **The answer of a source that stands for a term** is the answer of the term. -/
theorem Stands.answers_iff {source : String} {term : Term} (h : Stands source term) :
    Answers source decode answer ↔ Program.Answers ⟨program.body ++ [term]⟩ decode answer := by
  obtain ⟨read, hregular, hread, hattains⟩ := h
  rw [answers_behind_iff, ← hattains, ← answers_behind_iff]
  have hcompile : ∀ name, (Assembly.make name source true).compile = .ok ⟨program.body ++ [read]⟩ :=
    fun _ => compile_behind (Program.compile_of_isReadFrom hregular hread)
  constructor
  · intro hanswers
    obtain ⟨_, hcompile', hanswer⟩ := hanswers ""
    rw [hcompile] at hcompile'
    cases hcompile'
    exact hanswer
  · exact fun hanswer name => ⟨_, hcompile name, hanswer⟩

/-! ### Expressions -/

/-- **A source expresses a property**: it is the text of a term that attains it. -/
def Expresses (source : String) (property : Value → Prop) : Prop :=
  ∃ term : Term, term.isRegular ∧ term.IsReadFrom source ∧
    (Computation.ofTerm .empty term).Attains globals property

variable {property given gained : Value → Prop}

/-- A symbol expresses whatever the library means by it. -/
theorem expresses_symbol (symbol name : String) {value : Value}
    (hsymbol : Name.IsSymbol name symbol) (hvalue : globals.find? name = some value)
    (h : property value) : Expresses symbol property := by
  refine ⟨.atom name, rfl, Term.isReadFrom_symbol hsymbol, ?_⟩
  rw [Computation.attains_atom]
  refine ⟨value, ?_, h⟩
  rw [Scope.find?, Option.none_or, hvalue]

/-- One expression applied to another. -/
theorem Expresses.application {left right : String}
    (hleft : Expresses left (Value.Maps globals given gained)) (hright : Expresses right given) :
    Expresses ("(" ++ left ++ " " ++ right ++ ")") gained := by
  obtain ⟨operator, hregularOperator, hreadOperator, hoperator⟩ := hleft
  obtain ⟨operand, hregularOperand, hreadOperand, hoperand⟩ := hright
  have hoperatorStands := stands_of_isReadFrom hregularOperator hreadOperator
  have hoperandStands := stands_of_isReadFrom hregularOperand hreadOperand
  obtain ⟨read, hregular, hread, hattains⟩ := hoperatorStands.application hoperandStands
  exact ⟨read, hregular, hread, (hattains gained).mpr (hoperator.application hoperand)⟩

theorem Expresses.congr {source text : String} (h : Expresses source property)
    (heq : text.toList = source.toList) : Expresses text property := by
  rwa [String.toList_injective heq]

section Calls

variable (symbol name : String) {value : Value} {first second : String}

/-- A symbol applied to one expression. -/
theorem expresses_call (hsymbol : Name.IsSymbol name symbol)
    (hvalue : globals.find? name = some value) (h : value.Maps globals given gained)
    (hfirst : Expresses first given) : Expresses s!"({symbol} {first})" gained :=
  ((expresses_symbol symbol name hsymbol hvalue h).application hfirst).congr (by simp [toString])

/-- A symbol applied to two expressions. -/
theorem expresses_call₂ {given' : Value → Prop} (hsymbol : Name.IsSymbol name symbol)
    (hvalue : globals.find? name = some value)
    (h : value.Maps globals given (Value.Maps globals given' gained))
    (hfirst : Expresses first given) (hsecond : Expresses second given') :
    Expresses s!"(({symbol} {first}) {second})" gained :=
  ((expresses_call symbol name hsymbol hvalue h hfirst).application hsecond).congr
    (by simp [toString])

end Calls

/-- **What a source expresses is its answer**, if decoding finds it. -/
theorem Expresses.answers {source : String} (h : Expresses source property)
    (hdecode : ∀ value, property value → ∃ depth, decode globals depth value = .ok answer) :
    Answers source decode answer := by
  obtain ⟨term, hregular, hread, hattains⟩ := h
  rw [(stands_of_isReadFrom hregular hread).answers_iff, answers_behind_iff]
  exact hattains.imp hdecode

end BaseLibrary

end ParenLambda
