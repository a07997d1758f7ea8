import ParenLambda.Command
import ParenLambda.Proofs.Identifiers
import ParenLambda.Proofs.Rendering.Walk

/-!
# What a rendered text can hold

A backend puts the texts of the parts of a term together, and an inlining backend puts recorded texts in
place of names, again and again. If every rule of a table makes clean texts of clean texts, where the
names are proper and the state is tidy, then all the texts of a program are clean, whatever its shape
(`ParenLambda.Rules.Keeps.render`). What is clean, proper and tidy is up to the table.

The names of a compiled program are identifiers, however odd the symbols of its source. So a text in the
notation of the lambda calculus holds the characters of identifiers and the few signs of the notation
and nothing else, and as a comment in another language it cannot end the comment.
-/

namespace ParenLambda

namespace Rules

variable {σ : Type} {rules : Rules σ}

/-- A rule has made a clean text and left a tidy state. -/
def Kept (clean : String → Prop) (tidy : σ → Prop) (result : String × σ) : Prop :=
  clean result.1 ∧ tidy result.2

/-- **A table keeps to clean texts**: each of its rules makes a clean text of clean texts and proper
names, and leaves a tidy state if it finds one. -/
structure Keeps (rules : Rules σ) (proper clean : String → Prop) (tidy : σ → Prop) : Prop where
  /-- At the start the state is tidy. -/
  start : tidy rules.start
  /-- The text of a program. -/
  program : ∀ items state, (∀ item ∈ items, clean item) → clean (rules.program items state)
  /-- The text of a definition. -/
  definition : ∀ name value state, proper name → clean value → tidy state →
    Kept clean tidy (rules.definition name value state)
  /-- The text of an abstraction. -/
  abstraction : ∀ parameter body state, proper parameter → clean body → tidy state →
    Kept clean tidy (rules.abstraction parameter body state)
  /-- The text of an application. -/
  application : ∀ operator operand state, clean operator → clean operand → tidy state →
    Kept clean tidy (rules.application operator operand state)
  /-- The text of a name, bound or not. -/
  atom : ∀ name bound state, proper name → tidy state → Kept clean tidy (rules.atom name bound state)
  /-- The text of a sequence. -/
  sequence : ∀ members state, (∀ member ∈ members, clean member) → tidy state →
    Kept clean tidy (rules.sequence members state)

namespace Keeps

variable {proper clean : String → Prop} {tidy : σ → Prop}

theorem texts_of_forall {terms : List Term} {scope : List String}
    (h : ∀ term ∈ terms, ∀ state, tidy state → Kept clean tidy (rules.text scope term state))
    {state : σ} (hstate : tidy state) :
    (∀ text ∈ (rules.texts scope terms state).1, clean text) ∧
      tidy (rules.texts scope terms state).2 := by
  induction terms generalizing state with
  | nil =>
    rw [texts_nil]
    exact ⟨fun text htext => absurd htext List.not_mem_nil, hstate⟩
  | cons term rest ih =>
    obtain ⟨htext, hstate⟩ := h term List.mem_cons_self state hstate
    obtain ⟨htexts, hrest⟩ := ih (fun other hother => h other (List.mem_cons_of_mem _ hother)) hstate
    rw [texts_cons]
    exact ⟨List.forall_mem_cons.mpr ⟨htext, htexts⟩, hrest⟩

/-- **The text of a term with proper names is clean.** -/
theorem text (h : rules.Keeps proper clean tidy) (term : Term)
    (hnames : ∀ name ∈ term.names, proper name) (scope : List String) (state : σ)
    (hstate : tidy state) : Kept clean tidy (rules.text scope term state) := by
  induction term using Term.induction generalizing scope state with
  | atom name =>
    rw [Rules.text]
    exact h.atom name _ state (hnames name List.mem_cons_self) hstate
  | definition name value ih =>
    obtain ⟨hname, hvalue⟩ := List.forall_mem_cons.mp hnames
    obtain ⟨htext, hstate⟩ := ih hvalue scope state hstate
    rw [text_definition]
    exact h.definition _ _ _ hname htext hstate
  | abstraction parameter body ih =>
    obtain ⟨hparameter, hbody⟩ := List.forall_mem_cons.mp hnames
    obtain ⟨htext, hstate⟩ := ih hbody (parameter :: scope) state hstate
    rw [text_abstraction]
    exact h.abstraction _ _ _ hparameter htext hstate
  | application operator operand ihOperator ihOperand =>
    obtain ⟨hoperator, hoperand⟩ := List.forall_mem_append.mp hnames
    -- The operand finds the state that the operator has left.
    obtain ⟨htext, hstate⟩ := ihOperator hoperator scope state hstate
    obtain ⟨htext', hstate⟩ := ihOperand hoperand scope _ hstate
    rw [text_application]
    exact h.application _ _ _ htext htext' hstate
  | sequence members ih =>
    have hmembers : ∀ member ∈ members, ∀ name ∈ member.names, proper name :=
      fun member hmember name hname => hnames name (Term.mem_namesAll.mpr ⟨member, hmember, hname⟩)
    obtain ⟨htexts, hstate⟩ := texts_of_forall
      (fun member hmember => ih member hmember (hmembers member hmember) scope) hstate
    rw [text_sequence]
    exact h.sequence _ _ htexts hstate

/-- **The text of a program with proper names is clean.** -/
theorem render (h : rules.Keeps proper clean tidy) {program : Program}
    (hnames : ∀ name ∈ program.names, proper name) : clean (rules.render program) := by
  have hitems : ∀ term ∈ program.body, ∀ state, tidy state →
      Kept clean tidy (rules.text [] term state) := fun term hterm state hstate =>
    h.text term (fun name hname => hnames name (Term.mem_namesAll.mpr ⟨term, hterm, hname⟩)) []
      state hstate
  rw [render_eq]
  exact h.program _ _ (texts_of_forall hitems h.start).1

end Keeps

end Rules

/-! ### Recorded texts -/

namespace Recorded

variable {clean : String → Prop} {recorded : Recorded}

/-- **Every recorded text is clean.** -/
def Tidy (clean : String → Prop) (recorded : Recorded) : Prop :=
  ∀ name text, recorded.lookup name = some text → clean text

/-- A name that is looked up shows its spelling or what is recorded for it, and changes nothing. -/
theorem use_eq (name : String) (bound : Bool) (spelling : String) (recorded : Recorded) :
    use name bound spelling recorded =
      (if bound then spelling else (recorded.lookup name).getD spelling, recorded) := by
  change (use name bound spelling).run recorded = _
  rw [use, StateT.run_bind, StateT.run_get, pure_bind]
  cases recorded.lookup name with
  | none => exact congrArg (·, recorded) (ite_self spelling).symm
  | some value => rfl

theorem kept_use (name : String) (bound : Bool) {spelling : String} (hspelling : clean spelling)
    (h : recorded.Tidy clean) : Rules.Kept clean (Tidy clean) (use name bound spelling recorded) := by
  rw [use_eq]
  refine ⟨?_, h⟩
  cases bound with
  | true => exact hspelling
  | false =>
    cases hlookup : recorded.lookup name with
    | none => exact hspelling
    | some text => exact h name text hlookup

/-- A clean text may be recorded. -/
theorem kept_define (name : String) {value : String} (hempty : clean "") (hvalue : clean value)
    (h : recorded.Tidy clean) : Rules.Kept clean (Tidy clean) (define name value recorded) := by
  refine ⟨hempty, fun used text hlookup => ?_⟩
  change ((name, value) :: recorded).lookup used = some text at hlookup
  rw [List.lookup_cons] at hlookup
  split at hlookup
  · cases hlookup
    exact hvalue
  · exact h used text hlookup

end Recorded

/-! ### The notation of the lambda calculus -/

namespace Church

/-- The signs of the notation. -/
def signs : List Char := ['(', ')', '.', 'λ', ' ']

/-- **A text in the notation** holds the characters of identifiers and the signs. -/
def IsNotation (text : String) : Prop :=
  ∀ c ∈ text.toList, Text.isIdentifierPart c ∨ c ∈ signs

namespace IsNotation

theorem ofName {name : String} (h : Name.isIdentifier name) : IsNotation name :=
  fun c hc => Or.inl ((Name.isIdentifier_iff.mp h).2 c hc)

theorem ofSigns {text : String} (h : text.toList.all signs.contains) : IsNotation text :=
  fun c hc => Or.inr (List.contains_iff_mem.mp (List.all_eq_true.mp h c hc))

theorem append {left right : String} (hleft : IsNotation left) (hright : IsNotation right) :
    IsNotation (left ++ right) := by
  intro c hc
  rw [String.toList_append] at hc
  exact (List.mem_append.mp hc).elim (hleft c) (hright c)

theorem join {texts : List String} (h : ∀ text ∈ texts, IsNotation text) :
    IsNotation (String.join texts) := by
  intro c hc
  rw [String.toList_join] at hc
  obtain ⟨text, htext, hc⟩ := List.mem_flatMap.mp hc
  exact h text htext c hc

/-- No asterisk occurs in the notation, so nothing in it ends a comment. -/
theorem not_mem_asterisk {text : String} (h : IsNotation text) : '*' ∉ text.toList := by
  intro hmem
  exact (h '*' hmem).elim (by decide) (by decide)

end IsNotation

theorem rules_keeps : rules.Keeps (Name.isIdentifier ·) IsNotation (Recorded.Tidy IsNotation) where
  start := by
    rintro name text ⟨⟩
  program items _ hitems := .join hitems
  definition name value recorded _ hvalue hrecorded :=
    Recorded.kept_define name (.ofSigns (by decide)) hvalue hrecorded
  abstraction parameter body recorded hparameter hbody hrecorded := by
    have hhead : IsNotation ("(λ " ++ parameter) :=
      IsNotation.append (.ofSigns (by decide)) (.ofName hparameter)
    have hdot : IsNotation ("(λ " ++ parameter ++ ".") := hhead.append (.ofSigns (by decide))
    exact ⟨(hdot.append hbody).append (.ofSigns (by decide)), hrecorded⟩
  application operator operand recorded hoperator hoperand hrecorded := by
    have hcall : IsNotation ("(" ++ operator ++ ") (") :=
      (IsNotation.append (.ofSigns (by decide)) hoperator).append (.ofSigns (by decide))
    exact ⟨(hcall.append hoperand).append (.ofSigns (by decide)), hrecorded⟩
  atom name bound recorded hname hrecorded :=
    Recorded.kept_use name bound (.ofName hname) hrecorded
  sequence members recorded hmembers hrecorded := ⟨.join hmembers, hrecorded⟩

end Church

/-! ### Comments -/

/-- **A comment without asterisks ends at its end.** The first place behind an opening mark at which the
closing mark stands is the one that was written for it. -/
theorem eq_nil_of_closing {inside before after : List Char} (h : '*' ∉ inside)
    (hsplit : inside ++ ['*', '/'] = before ++ '*' :: '/' :: after) : after = [] := by
  rcases List.append_eq_append_iff.mp hsplit with ⟨front, rfl, hfront⟩ | ⟨back, rfl, hback⟩
  · -- The mark starts at the final one or behind it, where there is no room.
    cases front with
    | nil => exact (List.cons.inj (List.cons.inj hfront).2).2.symm
    | cons c front =>
      have hlength := congrArg List.length hfront
      simp only [List.length_cons, List.length_append, List.length_nil] at hlength
      omega
  · -- A mark that starts before the final one has its asterisk inside.
    cases back with
    | nil => exact (List.cons.inj (List.cons.inj hback).2).2
    | cons c back =>
      obtain ⟨rfl, -⟩ := List.cons.inj hback
      exact absurd (List.mem_append_right before List.mem_cons_self) h

/-- **Source text cannot leak into the output as syntax.** Every name of a compiled program is an
identifier. So its Church notation holds nothing but the characters of identifiers, parentheses, dots,
lambdas and spaces, and no mark that ends a comment; and the comment that a request to compile may ask
for ends at its own last two characters and nowhere before. -/
theorem Program.church_contained (source : String) (program : Program)
    (h : compile source = .ok program) :
    (∀ name ∈ program.names, Name.isIdentifier name) ∧
    (∀ prelude, ∀ c ∈ (Backend.church.render program prelude).toList,
      Text.isIdentifierPart c ∨ c ∈ ['(', ')', '.', 'λ', ' ']) ∧
    (∀ prelude, ¬['*', '/'] <:+: (Backend.church.render program prelude).toList) ∧
    ∀ context request backend, request.withChurch →
      ∃ inside : String,
        Command.compiledText context request backend program =
          Command.render backend (!request.withoutPrelude && context.settings.usesPrelude) program ++
            "\n\n/*" ++ inside ++ "*/" ∧
        ∀ before after, (inside ++ "*/").toList = before ++ '*' :: '/' :: after → after = [] := by
  have hnames := isIdentifier_of_compile h
  have hnotation : Church.IsNotation (Church.rules.render program) := Church.rules_keeps.render hnames
  refine ⟨hnames, fun _ => hnotation, fun _ hmark => ?_, fun context request backend hchurch => ?_⟩
  · exact hnotation.not_mem_asterisk (hmark.subset List.mem_cons_self)
  · refine ⟨"\n" ++ Church.rules.render program ++ "\n", ?_, fun before after hsplit => ?_⟩
    · simp only [Command.compiledText, hchurch, if_true, Command.churchComment, String.append_assoc]
      rfl
    · have hasterisk : '*' ∉ ("\n" ++ Church.rules.render program ++ "\n").toList := by
        simpa [String.toList_append] using hnotation.not_mem_asterisk
      rw [String.toList_append] at hsplit
      exact eq_nil_of_closing hasterisk hsplit

/-- A program whose source holds the mark that ends a comment three times. -/
def Program.closingMarks : Program where
  body := [.sequence [.abstraction "__" (.atom "__"), .atom "BUILTIN___1__"]]

/-- A request to compile the standard input, with the Church notation in a comment. -/
def CompileRequest.commented : CompileRequest where
  source := ⟨"-", false⟩
  withChurch := true

theorem Program.church_contained_closingMarks :
    compile "((λ */ */) 1*/)" = .ok closingMarks ∧
    (∀ name ∈ ["__", "__", "BUILTIN___1__"], Name.isIdentifier name) ∧
    ¬['*', '/'] <:+: (Backend.church.render closingMarks none).toList ∧
    ∃ inside : String,
      Command.compiledText ⟨.standard, .empty, false⟩ .commented .javaScript closingMarks =
        Command.render .javaScript true closingMarks ++ "\n\n/*" ++ inside ++ "*/" ∧
      ∀ before after, (inside ++ "*/").toList = before ++ '*' :: '/' :: after → after = [] := by
  have hcompile : compile "((λ */ */) 1*/)" = .ok closingMarks := by
    rw [compile_eq]
    rfl
  obtain ⟨hnames, -, hmark, hcomment⟩ := church_contained _ closingMarks hcompile
  exact ⟨hcompile, hnames, hmark none, hcomment ⟨.standard, .empty, false⟩ .commented .javaScript rfl⟩

end ParenLambda
