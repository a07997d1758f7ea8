import ParenLambda.Proofs.Names
import ParenLambda.Proofs.Reading.Flatten
import ParenLambda.Proofs.Regular
import ParenLambda.Proofs.Scanning.Words

/-!
# Spelling a program and compiling it again

A program can be spelled as a source: a name as itself, everything else between parentheses, with a
space between any two members. Compiling undoes spelling.

Two things have to be arranged. A term is compiled from a form, and only a regular term is the term of
a form; `ParenLambda.Term.toForm` is that form. And a name is written as a symbol, which scanning
replaces by its canonical name, so the names have to be **plain**: canonical already, and no
introducers. Then the tokens of the spelling are the tokens of the form
(`ParenLambda.Term.isReadFrom_spell`), and these are read as the form again.
-/

namespace ParenLambda

/-! ### Spelling -/

namespace Term

mutual

/-- **The spelling of a term.** -/
def spell : Term → String
  | atom name => name
  | definition name value => "(let " ++ name ++ " " ++ value.spell ++ ")"
  | abstraction parameter body => "(λ " ++ parameter ++ " " ++ body.spell ++ ")"
  | application operator operand => "(" ++ operator.spell ++ " " ++ operand.spell ++ ")"
  | sequence members => "(" ++ " ".intercalate (spellAll members) ++ ")"

/-- The spellings of a list of terms. -/
def spellAll : List Term → List String
  | [] => []
  | term :: rest => term.spell :: spellAll rest

end

mutual

/-- The names of a term: those it defines, its parameters and its atoms. -/
def names : Term → List String
  | atom name => [name]
  | definition name value => name :: value.names
  | abstraction parameter body => parameter :: body.names
  | application operator operand => operator.names ++ operand.names
  | sequence members => namesAll members

/-- The names of a list of terms. -/
def namesAll : List Term → List String
  | [] => []
  | term :: rest => term.names ++ namesAll rest

end

mutual

/-- The form that a term is spelled from, at no place in particular. -/
def toForm : Term → Form
  | atom name => .atom name
  | definition name value => .binding .definition name [value.toForm] (.point 0)
  | abstraction parameter body => .binding .abstraction parameter [body.toForm] (.point 0)
  | application operator operand => .group [operator.toForm, operand.toForm] (.point 0)
  | sequence members => .group (toForms members) (.point 0)

/-- The forms that a list of terms is spelled from. -/
def toForms : List Term → List Form
  | [] => []
  | term :: rest => term.toForm :: toForms rest

end

@[simp] theorem isBinding_toForm (term : Term) : term.toForm.isBinding = term.isBinding := by
  cases term <;> rfl

theorem mem_namesAll {name : String} {terms : List Term} :
    name ∈ namesAll terms ↔ ∃ term ∈ terms, name ∈ term.names := by
  induction terms with
  | nil => simp [namesAll]
  | cons term rest ih => simp [namesAll, ih]

end Term

/-- The spelling of a program: the spellings of its terms, with a space between any two. -/
def Program.spell (program : Program) : String :=
  " ".intercalate (Term.spellAll program.body)

/-- The names of a program. -/
def Program.names (program : Program) : List String :=
  Term.namesAll program.body

/-- **A plain name**: its own canonical name, and none of the three words that introduce a
binding. -/
structure Name.Plain (name : String) : Prop where
  /-- There is something to write. -/
  ne_empty : name ≠ ""
  /-- Scanning leaves the name as it is. -/
  canonical_eq : canonical name = name
  /-- The name does not introduce a binding. -/
  not_introducer : name ∉ ["let", "lambda", "λ"]

instance (name : String) : Decidable (Name.Plain name) :=
  decidable_of_iff
    (name ≠ "" ∧ Name.canonical name = name ∧ name ∉ ["let", "lambda", "λ"])
    ⟨fun h => ⟨h.1, h.2.1, h.2.2⟩, fun h => ⟨h.ne_empty, h.canonical_eq, h.not_introducer⟩⟩

/-! ### The term of the form of a term -/

namespace Term

theorem ofForms_toForms_of_forall {terms : List Term}
    (h : ∀ term ∈ terms, ofForm term.toForm = .ok term) : ofForms (toForms terms) = .ok terms := by
  induction terms with
  | nil => rfl
  | cons term rest ih =>
    have hrest := ih fun other hother => h other (List.mem_cons_of_mem _ hother)
    rw [toForms, ofForms, h term List.mem_cons_self, hrest]

/-- **A regular term is the term of its form.** -/
theorem ofForm_toForm (term : Term) (h : term.isRegular) : ofForm term.toForm = .ok term := by
  induction term using Term.induction with
  | atom name => rfl
  | definition name value ih =>
    rw [isRegular] at h
    rw [toForm, ofForm, ofForms, ih h]
    rfl
  | abstraction parameter body ih =>
    rw [isRegular] at h
    rw [toForm, ofForm, ofForms, ih h]
    rfl
  | application operator operand ihOperator ihOperand =>
    rw [isRegular, Bool.and_eq_true, Bool.and_eq_true, Bool.not_eq_true'] at h
    obtain ⟨hbinding, hoperator, hoperand⟩ := h
    rw [toForm, ofForm, ihOperator hoperator, ofForms, ihOperand hoperand, isBinding_toForm,
      hbinding]
    rfl
  | sequence members ih =>
    rw [isRegular, Bool.and_eq_true, areRegular_iff] at h
    obtain ⟨hbound, hmembers⟩ := h
    cases members with
    | nil => cases hbound
    | cons first rest =>
      have hbinding : first.isBinding = true := hbound
      have hrest : ofForms (toForms rest) = .ok rest := ofForms_toForms_of_forall fun other hother =>
        ih other (List.mem_cons_of_mem _ hother) (hmembers other (List.mem_cons_of_mem _ hother))
      rw [toForm, toForms, ofForm, ih first List.mem_cons_self (hmembers first List.mem_cons_self),
        hrest, isBinding_toForm, hbinding]
      rfl

end Term

/-! ### The tokens of a spelling -/

/-- A run of ordinary characters that introduces no binding is an atom, whatever the character behind
it. -/
theorem Fragment.token_symbol {symbol : String} (hordinary : ∀ c ∈ symbol.toList, isOrdinary c)
    (hintroducer : symbol ∉ ["let", "lambda", "λ"]) (start : Nat) (behind : Option Char) :
    token ⟨symbol.toList, start, behind⟩ = .atom (Name.canonical symbol) := by
  have hword : ∀ word ∈ ["let", "lambda", "λ"], symbol.toList ≠ word.toList := by
    intro word hmem heq
    exact hintroducer (String.toList_injective heq ▸ hmem)
  have hopening : symbol.toList ≠ ['('] := fun heq =>
    absurd (hordinary '(' (by simp [heq])) (by decide)
  have hclosing : symbol.toList ≠ [')'] := fun heq =>
    absurd (hordinary ')' (by simp [heq])) (by decide)
  unfold token
  split
  · exact absurd ‹_› hopening
  · exact absurd ‹_› hclosing
  · exact absurd ‹_› (hword "λ" (by simp))
  · exact absurd ‹_› (hword "let" (by simp))
  · exact absurd ‹_› (hword "lambda" (by simp))
  · rw [String.ofList_toList]

namespace Name

theorem Plain.isOrdinary {name : String} (h : Plain name) :
    ∀ c ∈ name.toList, Fragment.isOrdinary c := fun c hc =>
  Fragment.isOrdinary_of_isIdentifierPart (isIdentifierPart_of_canonical_eq h.canonical_eq c hc)

/-- A plain name is the name of the atom it spells, whatever the character behind it. -/
theorem Plain.token_eq {name : String} (h : Plain name) (start : Nat) (behind : Option Char) :
    Fragment.token ⟨name.toList, start, behind⟩ = .atom name := by
  rw [Fragment.token_symbol h.isOrdinary h.not_introducer, h.canonical_eq]

end Name

namespace Token

variable {rest : List Char}

/-- A plain name in front of a text is one atom. -/
theorem ofText_name {name : String} (h : Name.Plain name) (hrest : Fragment.Broken rest) :
    ofText (name.toList ++ rest) = .atom name :: ofText rest := by
  have hne : name.toList ≠ [] := fun heq => h.ne_empty (String.toList_eq_nil_iff.mp heq)
  rw [ofText_word hne h.isOrdinary hrest, h.token_eq]

theorem isOrdinary_word (kind : Introducer) : ∀ c ∈ kind.word.toList, Fragment.isOrdinary c := by
  rw [← List.all_eq_true]
  cases kind <;> rfl

/-- An introducer with a space behind it is one token. -/
theorem ofText_introducer (kind : Introducer) (rest : List Char) :
    ofText (kind.word.toList ++ ' ' :: rest) = .introducer kind :: ofText rest := by
  have hne : kind.word.toList ≠ [] := by cases kind <;> exact List.cons_ne_nil _ _
  rw [ofText_word hne (isOrdinary_word kind) (Fragment.broken_space rest), ofText_space]
  cases kind <;> rfl

end Token

namespace Term

/-- **A term is read from a text**: the tokens of the text are those of the term's form, in front of any
text that does not go on with its last name. -/
def IsReadFrom (term : Term) (text : String) : Prop :=
  ∀ rest, Fragment.Broken rest →
    Token.ofText (text.toList ++ rest) = term.toForm.flatten ++ Token.ofText rest

theorem ofText_spellAll {terms : List Term} (h : ∀ term ∈ terms, term.IsReadFrom term.spell)
    {rest : List Char} (hrest : Fragment.Broken rest) :
    Token.ofText ((" ".intercalate (spellAll terms)).toList ++ rest) =
      Form.flattenAll (toForms terms) ++ Token.ofText rest := by
  induction terms with
  | nil => rfl
  | cons term terms ih =>
    have hterm := h term List.mem_cons_self
    have hterms := ih fun other hother => h other (List.mem_cons_of_mem _ hother)
    rw [spellAll, toForms, Form.flattenAll]
    cases terms with
    | nil =>
      rw [spellAll, String.intercalate_singleton, hterm rest hrest]
      simp [toForms, Form.flattenAll]
    | cons next terms =>
      have hchars : (" ".intercalate (term.spell :: spellAll (next :: terms))).toList ++ rest =
          term.spell.toList ++
            ' ' :: ((" ".intercalate (spellAll (next :: terms))).toList ++ rest) := by
        rw [spellAll, String.intercalate_cons_cons]
        simp
      rw [hchars, hterm _ (Fragment.broken_space _), Token.ofText_space, hterms, List.append_assoc]

theorem ofText_binding (kind : Introducer) {name : String} (hname : Name.Plain name) {member : Term}
    {text : String} (hmember : member.IsReadFrom text) (rest : List Char) :
    Token.ofText ('(' :: (kind.word.toList ++
      ' ' :: (name.toList ++ ' ' :: (text.toList ++ ')' :: rest)))) =
      (Form.binding kind name [member.toForm] (.point 0)).flatten ++ Token.ofText rest := by
  rw [Token.ofText_opening, Token.ofText_introducer,
    Token.ofText_name hname (Fragment.broken_space _), Token.ofText_space,
    hmember _ (Fragment.broken_closing rest), Token.ofText_closing]
  simp [Form.flatten, Form.flattenAll]

theorem IsReadFrom.congr {term : Term} {source text : String} (h : term.IsReadFrom source)
    (heq : text.toList = source.toList) : term.IsReadFrom text := by
  rwa [String.toList_injective heq]

/-- An operator and an operand between parentheses, with a space between them. -/
theorem IsReadFrom.application {operator operand : Term} {left right : String}
    (hoperator : operator.IsReadFrom left) (hoperand : operand.IsReadFrom right) :
    (application operator operand).IsReadFrom ("(" ++ left ++ " " ++ right ++ ")") := by
  intro rest hrest
  have hchars : ("(" ++ left ++ " " ++ right ++ ")").toList ++ rest =
      '(' :: (left.toList ++ ' ' :: (right.toList ++ ')' :: rest)) := by
    simp
  rw [hchars, Token.ofText_opening, hoperator _ (Fragment.broken_space _), Token.ofText_space,
    hoperand _ (Fragment.broken_closing rest), Token.ofText_closing, toForm]
  simp [Form.flatten, Form.flattenAll]

/-- **A term is read from its spelling**, if the names are plain. -/
theorem isReadFrom_spell (term : Term) (h : ∀ name ∈ term.names, Name.Plain name) :
    term.IsReadFrom term.spell := by
  induction term using Term.induction with
  | atom name =>
    intro rest hrest
    exact Token.ofText_name (h name List.mem_cons_self) hrest
  | definition name value ih =>
    intro rest hrest
    rw [names] at h
    have hvalue := ih fun other hother => h other (List.mem_cons_of_mem _ hother)
    have hchars : (definition name value).spell.toList ++ rest =
        '(' :: (Introducer.definition.word.toList ++
          ' ' :: (name.toList ++ ' ' :: (value.spell.toList ++ ')' :: rest))) := by
      simp [spell, Introducer.word]
    rw [hchars, ofText_binding .definition (h name List.mem_cons_self) hvalue, toForm]
  | abstraction parameter body ih =>
    intro rest hrest
    rw [names] at h
    have hbody := ih fun other hother => h other (List.mem_cons_of_mem _ hother)
    have hchars : (abstraction parameter body).spell.toList ++ rest =
        '(' :: (Introducer.abstraction.word.toList ++
          ' ' :: (parameter.toList ++ ' ' :: (body.spell.toList ++ ')' :: rest))) := by
      simp [spell, Introducer.word]
    rw [hchars, ofText_binding .abstraction (h parameter List.mem_cons_self) hbody, toForm]
  | application operator operand ihOperator ihOperand =>
    rw [names] at h
    have hoperator := ihOperator fun other hother => h other (List.mem_append_left _ hother)
    have hoperand := ihOperand fun other hother => h other (List.mem_append_right _ hother)
    exact IsReadFrom.application hoperator hoperand
  | sequence members ih =>
    intro rest hrest
    rw [names] at h
    have hmembers : ∀ member ∈ members, member.IsReadFrom member.spell := fun member hmember =>
      ih member hmember fun name hname => h name (mem_namesAll.mpr ⟨member, hmember, hname⟩)
    have hchars : (sequence members).spell.toList ++ rest =
        '(' :: ((" ".intercalate (spellAll members)).toList ++ ')' :: rest) := by
      simp [spell]
    rw [hchars, Token.ofText_opening, ofText_spellAll hmembers (Fragment.broken_closing rest),
      Token.ofText_closing, toForm]
    simp [Form.flatten]

end Term

/-! ### Compiling a spelling -/

namespace Program

/-- **A program is compiled from any text with its tokens**: those of the forms of its terms. -/
theorem compile_of_tokens {program : Program} (hregular : program.isRegular) {source : String}
    (htokens : (Token.scan source).map Lexeme.token = Form.flattenAll (Term.toForms program.body)) :
    compile source = .ok program := by
  -- Reading gives the forms of the terms with the places of the text, which the terms do not see.
  obtain ⟨found, hfound, hread⟩ := Form.read_flattenAll htokens
  have hterms : Term.ofForms (Term.toForms program.body) = .ok program.body :=
    Term.ofForms_toForms_of_forall fun term hterm =>
      term.ofForm_toForm (Term.areRegular_iff.mp hregular term hterm)
  rw [compile_eq, Form.parse, hread]
  simp only [Term.ofForms_of_bare hfound hterms]
  rfl

/-- Compiling a spelling gives the program back. -/
theorem compile_spell {program : Program} (hregular : program.isRegular)
    (hnames : ∀ name ∈ program.names, Name.Plain name) :
    compile program.spell = .ok program := by
  have hspelled : ∀ term ∈ program.body, term.IsReadFrom term.spell := fun term hterm =>
    term.isReadFrom_spell fun name hname =>
      hnames name (Term.mem_namesAll.mpr ⟨term, hterm, hname⟩)
  refine compile_of_tokens hregular ?_
  have h := Term.ofText_spellAll hspelled Fragment.broken_nil
  rwa [List.append_nil, Token.ofText_nil, List.append_nil] at h

/-- **Compiling yields the regular programs, and undoes spelling.** A program that a source compiles
to is regular; and a regular program with plain names is what its spelling compiles to. -/
theorem compile_image :
    (∀ source program, compile source = .ok program → program.isRegular) ∧
    (∀ program : Program, program.isRegular → (∀ name ∈ program.names, Name.Plain name) →
      compile program.spell = .ok program) :=
  ⟨fun _ _ h => isRegular_of_compile h, fun _ hregular hnames => compile_spell hregular hnames⟩

/-- A program with a sequence inside a sequence. -/
def nestedSequence : Program :=
  ⟨[.definition "K" (.abstraction "x" (.abstraction "y" (.atom "x"))),
    .sequence [.abstraction "x" (.atom "x"), .application (.atom "K") (.atom "K"),
      .sequence [.definition "y" (.atom "K")]]]⟩

/-- A source with other spellings of names and introducers than the one its program is spelled by,
and a program that is compiled from its spelling. -/
theorem compile_image_nestedSequence :
    (compile "((lambda x x)(+ 1)); one" =
        .ok ⟨[.sequence [.abstraction "x" (.atom "x"),
          .application (.atom "T_PLUS") (.atom "BUILTIN___1")]]⟩ ∧
      isRegular ⟨[.sequence [.abstraction "x" (.atom "x"),
        .application (.atom "T_PLUS") (.atom "BUILTIN___1")]]⟩) ∧
    nestedSequence.isRegular ∧ (∀ name ∈ nestedSequence.names, Name.Plain name) ∧
    nestedSequence.spell = "(let K (λ x (λ y x))) ((λ x x) (K K) ((let y K)))" ∧
    compile nestedSequence.spell = .ok nestedSequence := by
  have hsource : compile "((lambda x x)(+ 1)); one" =
      .ok ⟨[.sequence [.abstraction "x" (.atom "x"),
        .application (.atom "T_PLUS") (.atom "BUILTIN___1")]]⟩ := by
    rw [compile_eq]
    rfl
  have hregular : nestedSequence.isRegular := by decide
  have hnames : ∀ name ∈ nestedSequence.names, Name.Plain name := by decide
  exact ⟨⟨hsource, compile_image.1 _ _ hsource⟩, hregular, hnames, by decide,
    compile_image.2 _ hregular hnames⟩

end Program

end ParenLambda
