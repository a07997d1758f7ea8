import ParenLambda.Proofs.Inlining.Texts
import ParenLambda.Proofs.Rendering.NamedSequences

/-!
# Statements and items

The backends with an interpreter write one statement for each item of a program, with a separator
between any two of them. The statements can be told apart again: splitting the output at the separator
(`ParenLambda.Text.split`) gives the texts of the items back, in order. For this it is enough that **the
first character of the separator occurs in no text**, which is seen from the characters that a dialect
uses (`ParenLambda.Dialect.Writable.not_mem`).

A statement shows by itself whether it stands for a definition. In JavaScript a definition starts with
the word `const` and a space, while behind the first name of an expression comes a parenthesis or
nothing; in Python only a definition has an equals sign.

JavaScript without definitions leaves out the items that have no text. These are the definitions and no
others: the text of any other item is that of an inlined tree, which can be written like the item itself
(`ParenLambda.Dialect.Writable.inline`), and so it is not empty.
-/

namespace ParenLambda

/-! ### Splitting texts -/

namespace Text

/-- The pieces of some characters between the places where a separator stands. The first `skip`
characters belong to the separator that has been found last. -/
def piecesFrom (separator : List Char) : Nat → List Char → List (List Char)
  | _, [] => [[]]
  | 0, c :: rest =>
    if separator.isPrefixOf (c :: rest) then [] :: piecesFrom separator (separator.length - 1) rest
    else (piecesFrom separator 0 rest).modifyHead (c :: ·)
  | skip + 1, _ :: rest => piecesFrom separator skip rest

/-- **The pieces of a text** between the places where a separator stands, which are found from left to
right and do not overlap. -/
def split (separator text : String) : List String :=
  (piecesFrom separator.toList 0 text.toList).map String.ofList

variable {c : Char} {tail piece : List Char}

theorem piecesFrom_skip (separator left rest : List Char) :
    piecesFrom separator left.length (left ++ rest) = piecesFrom separator 0 rest := by
  induction left with
  | nil => rfl
  | cons d left ih => exact ih

theorem not_isPrefixOf_cons {d : Char} (h : c ≠ d) (rest : List Char) :
    (c :: tail).isPrefixOf (d :: rest) = false := by
  rw [List.isPrefixOf_cons_cons, beq_eq_false_iff_ne.mpr h, Bool.false_and]

theorem piecesFrom_of_not_mem (h : c ∉ piece) : piecesFrom (c :: tail) 0 piece = [piece] := by
  induction piece with
  | nil => rfl
  | cons d piece ih =>
    rw [List.mem_cons, not_or] at h
    rw [piecesFrom, not_isPrefixOf_cons h.1, if_neg Bool.false_ne_true, ih h.2]
    rfl

/-- The first piece ends where a separator is found first. -/
theorem piecesFrom_append (h : c ∉ piece) (rest : List Char) :
    piecesFrom (c :: tail) 0 (piece ++ (c :: tail ++ rest)) =
      piece :: piecesFrom (c :: tail) 0 rest := by
  induction piece with
  | nil =>
    have hfound : (c :: tail).isPrefixOf (c :: (tail ++ rest)) = true :=
      List.isPrefixOf_iff_prefix.mpr (List.prefix_append (c :: tail) rest)
    rw [List.nil_append, List.cons_append, piecesFrom, if_pos hfound]
    exact congrArg ([] :: ·) (piecesFrom_skip (c :: tail) tail rest)
  | cons d piece ih =>
    rw [List.mem_cons, not_or] at h
    rw [List.cons_append, piecesFrom, not_isPrefixOf_cons h.1, if_neg Bool.false_ne_true, ih h.2]
    rfl

/-- **Texts that are put together with a separator are told apart by it**, if its first character is in
none of them. -/
theorem split_intercalate {separator : String} {texts : List String}
    (hseparator : separator.toList = c :: tail) (hne : texts ≠ [])
    (h : ∀ text ∈ texts, c ∉ text.toList) : split separator (separator.intercalate texts) = texts := by
  rw [split, String.toList_intercalate, hseparator]
  induction texts with
  | nil => exact absurd rfl hne
  | cons text rest ih =>
    obtain ⟨htext, hrest⟩ := List.forall_mem_cons.mp h
    cases rest with
    | nil =>
      rw [List.map_singleton, List.intercalate_singleton, piecesFrom_of_not_mem htext,
        List.map_singleton, String.ofList_toList]
    | cons second rest =>
      rw [List.map_cons, List.map_cons, List.intercalate_cons_cons, List.append_assoc,
        piecesFrom_append htext, List.map_cons, String.ofList_toList]
      exact congrArg (text :: ·) (ih (List.cons_ne_nil second rest) hrest)

end Text

/-! ### The characters of a text -/

namespace Dialect

open Backend

variable {dialect : Dialect} {rules : Rules Unit} {term item : Term} {scope : List String} {c : Char}

/-- **The signs of a dialect**: what its texts can hold besides names. -/
def signs (dialect : Dialect) : List Char :=
  '(' :: ')' :: ' ' :: (dialect.before ++ dialect.behind)

theorem IsName.not_mem {name : String} (h : dialect.IsName name)
    (hc : Text.isIdentifierPart c = false) : c ∉ name.toList := by
  intro hmem
  cases hc.symm.trans (h.parts c hmem)

theorem not_mem_operator {text : List Char} (h : c ∉ text) (hsigns : c ∉ dialect.signs) :
    c ∉ dialect.operator text := by
  simp only [signs, List.mem_cons, not_or] at hsigns
  rw [operator]
  cases hgap : dialect.gap? with
  | none => exact h
  | some gap =>
    have hmem : c ∉ gap := fun hmem => hsigns.2.2.1 (eq_space_of_mem_gap hgap hmem)
    simp [h, hmem, hsigns.1, hsigns.2.1]

/-- **A text has no characters but those of names and the signs of the dialect.** -/
theorem Writable.not_mem (h : dialect.Writable term) (hrules : dialect.Governs rules)
    (hc : Text.isIdentifierPart c = false) (hsigns : c ∉ dialect.signs) :
    c ∉ chars rules scope term := by
  have hpieces := hsigns
  simp only [signs, List.mem_cons, List.mem_append, not_or] at hpieces
  obtain ⟨hopening, hclosing, -, hbefore, hbehind⟩ := hpieces
  induction h generalizing scope with
  | atom hname =>
    rw [hrules.chars_atom]
    exact hname.not_mem hc
  | abstraction hparameter _ ih =>
    rw [hrules.chars_abstraction, heading]
    simp [hopening, hclosing, hbefore, hbehind, hparameter.not_mem hc, ih]
  | application _ _ ihOperator ihOperand =>
    rw [hrules.chars_application]
    simp [hopening, hclosing, not_mem_operator ihOperator hsigns, ihOperand]
  | sequence _ _ ihFirst ihRest =>
    rw [hrules.chars_sequence, List.mem_append, not_or]
    refine ⟨ihFirst, fun hmem => ?_⟩
    obtain ⟨member, hmember, hmem⟩ := List.mem_flatMap.mp hmem
    exact ihRest member hmember hmem

theorem Writable.ne_empty (h : dialect.Writable term) (hrules : dialect.Governs rules) :
    rules.plainText term ≠ "" := by
  intro hempty
  have hpos : 0 < Text.letters (chars rules [] term) := h.letters_pos hrules
  have hchars : chars rules [] term = [] := congrArg String.toList hempty
  rw [hchars] at hpos
  exact absurd hpos (Nat.lt_irrefl 0)

/-- **An inlined tree can be written**, if the recorded trees can. -/
theorem Writable.inline {expansions : Expansions} (h : dialect.Writable term)
    (hrecord : ∀ entry ∈ expansions, dialect.Writable entry.2) :
    dialect.Writable (term.inline expansions scope) := by
  induction h generalizing scope with
  | @atom name hname =>
    rw [Term.inline]
    split
    · exact .atom hname
    · cases hlookup : expansions.lookup name with
      | none => exact .atom hname
      | some tree =>
        obtain ⟨before, after, hsplit, -⟩ := List.lookup_eq_some_iff.mp hlookup
        exact hrecord (name, tree) (by simp [hsplit])
  | abstraction hparameter _ ih =>
    rw [Term.inline]
    exact .abstraction hparameter ih
  | application _ _ ihOperator ihOperand =>
    rw [Term.inline]
    exact .application ihOperator ihOperand
  | sequence _ _ ihFirst ihRest =>
    rw [Term.inline, Term.inlineAll, Term.inline, Term.inlineAll_eq]
    have hfirst := @ihFirst scope
    rw [Term.inline] at hfirst
    refine .sequence hfirst fun member hmember => ?_
    obtain ⟨other, hother, rfl⟩ := List.mem_map.mp hmember
    exact ihRest other hother

end Dialect

/-! ### Statements -/

/-- Whether a term is a definition. -/
def Term.isDefinition : Term → Bool
  | definition _ _ => true
  | _ => false

/-- **A statement stands for an item**: it has the mark of a definition exactly if the item is one, and
then it binds the name to the text of the value; and otherwise it is the text of the item, which is not
empty. -/
structure Rules.StandsFor (rules : Rules Unit) (isMarked : String → Prop)
    (binding : String → String → String) (item : Term) (statement : String) : Prop where
  /-- Definitions have the mark. -/
  isMarked_iff : isMarked statement ↔ item.isDefinition
  /-- The statement of a definition. -/
  definition : ∀ name value, item = .definition name value →
    statement = binding name (rules.item value ()).1
  /-- The statement of any other item. -/
  expression : item.isDefinition = false → statement = (rules.item item ()).1 ∧ statement ≠ ""

theorem Rules.plainText_definition (rules : Rules Unit) (name : String) (value : Term) :
    rules.plainText (.definition name value) =
      (rules.definition name (rules.plainText value) ()).1 := by
  rw [plainText, text_definition]
  rfl

namespace Dialect

variable {dialect : Dialect} {rules : Rules Unit} {term item : Term} {isMarked : String → Prop}
  {binding : String → String → String}

theorem Writable.isExpression (h : dialect.Writable term) : term.isExpression := by
  induction h with
  | atom _ => rfl
  | abstraction _ _ ih => exact ih
  | application _ _ ihOperator ihOperand =>
    rw [Term.isExpression, ihOperator, ihOperand]
    rfl
  | sequence _ _ ihFirst ihRest =>
    rw [Term.isExpression, Term.areExpressions, ihFirst, Term.areExpressions_iff.mpr ihRest]
    rfl

theorem Writable.isDefinition_eq (h : dialect.Writable term) : term.isDefinition = false := by
  cases h <;> rfl

/-- **The text of an item is a statement for it**, if the texts of definitions have a mark and those of
other terms have none. -/
theorem WritableItem.standsFor (h : dialect.WritableItem item) (hrules : dialect.Governs rules)
    (hdefinition : ∀ name text, (rules.definition name text ()).1 = binding name text)
    (hmarked : ∀ name text, isMarked (binding name text))
    (hunmarked : ∀ term, dialect.Writable term → ¬isMarked (rules.plainText term)) :
    rules.StandsFor isMarked binding item (rules.plainText item) := by
  cases h with
  | @definition name value hname hvalue =>
    refine ⟨⟨fun _ => rfl, fun _ => ?_⟩, ?_, nofun⟩
    · rw [rules.plainText_definition, hdefinition]
      exact hmarked name _
    · rintro _ _ ⟨⟩
      rw [rules.plainText_definition, hdefinition, rules.item_plainText]
  | expression hterm =>
    have hplain := hterm.isDefinition_eq
    refine ⟨⟨fun hmark => absurd hmark (hunmarked item hterm), fun hmark => ?_⟩, ?_, fun _ => ?_⟩
    · cases hplain.symm.trans hmark
    · rintro name value rfl
      cases hplain
    · exact ⟨(rules.item_plainText item).symm, hterm.ne_empty hrules⟩

/-- **A character that is no sign of the dialect is in no statement**, unless the statements of
definitions bring it in. -/
theorem WritableItem.not_mem {c : Char} (h : dialect.WritableItem item)
    (hrules : dialect.Governs rules) (hc : Text.isIdentifierPart c = false)
    (hsigns : c ∉ dialect.signs)
    (hdefinition : ∀ name text, dialect.IsName (Backend.escape dialect.reserved name) →
      c ∉ text.toList → c ∉ (rules.definition name text ()).1.toList) :
    c ∉ (rules.plainText item).toList := by
  cases h with
  | definition hname hvalue =>
    rw [rules.plainText_definition]
    exact hdefinition _ _ hname (hvalue.not_mem hrules hc hsigns)
  | expression hterm => exact hterm.not_mem hrules hc hsigns

end Dialect

/-! ### The two targets -/

namespace JavaScript

/-- **A statement of JavaScript** for an item: a definition starts with a word of its own. -/
def IsStatement : Term → String → Prop :=
  rules.StandsFor (fun statement => ∃ rest, statement = "const " ++ rest)
    fun name value => "const " ++ identifier name ++ " = " ++ value

variable {item : Term}

theorem isStatement_plainText (h : Dialect.javaScript.WritableItem item) :
    IsStatement item (rules.plainText item) := by
  refine h.standsFor Dialect.governs_javaScript (fun _ _ => rfl) (fun name text => ?_) ?_
  · refine ⟨identifier name ++ " = " ++ text, ?_⟩
    rw [String.append_assoc, String.append_assoc, String.append_assoc]
  · -- Behind the first name of an expression there is no space.
    rintro term hterm ⟨rest, hrest⟩
    have hspace : Text.behindName (Dialect.chars rules [] term) = some ' ' := by
      change Text.behindName (rules.plainText term).toList = _
      rw [hrest, String.toList_append, Text.behindName_append]
      rfl
    rcases hterm.behindName Dialect.governs_javaScript with hname | hname
    · cases hname.symm.trans hspace
    · cases hname.symm.trans hspace

/-- No statement has a semicolon inside. -/
theorem semicolon_not_mem (h : Dialect.javaScript.WritableItem item) :
    ';' ∉ (rules.plainText item).toList := by
  refine h.not_mem Dialect.governs_javaScript (by decide) (by decide) fun name text hname htext => ?_
  have hescaped : ';' ∉ (identifier name).toList := hname.not_mem (by decide)
  change ';' ∉ ("const " ++ identifier name ++ " = " ++ text).toList
  simp [hescaped, htext]

/-- The statements of a program, and the semicolon at its end. -/
theorem render_plainText {program : Program} (h : program.body ≠ []) :
    Backend.javaScript.render program none =
      ";\n".intercalate (program.body.map rules.plainText) ++ ";" := by
  have hne : (program.body.map rules.plainText).isEmpty = false := by simpa using h
  change rules.render program = _
  rw [Rules.render_eq]
  change (if (rules.texts [] program.body ()).1.isEmpty then _ else _) = _
  rw [Rules.texts_plainText, hne, if_neg Bool.false_ne_true]

theorem render_eq_empty_iff {program : Program} :
    Backend.javaScript.render program none = "" ↔ program.body = [] := by
  constructor
  · intro hempty
    by_contra hne
    rw [render_plainText hne] at hempty
    simpa using congrArg String.toList hempty
  · intro hnil
    change rules.render program = ""
    rw [Rules.render_eq, hnil]
    rfl

end JavaScript

namespace Python

/-- **A statement of Python** for an item: only a definition has an equals sign. -/
def IsStatement : Term → String → Prop :=
  rules.StandsFor (fun statement => ∃ left right, statement = left ++ " = " ++ right)
    fun name value => identifier name ++ " = " ++ value

variable {item : Term}

theorem isStatement_plainText (h : Dialect.python.WritableItem item) :
    IsStatement item (rules.plainText item) := by
  refine h.standsFor Dialect.governs_python (fun _ _ => rfl) (fun name text => ?_) ?_
  · exact ⟨identifier name, text, rfl⟩
  · rintro term hterm ⟨left, right, hmarked⟩
    have hequals : '=' ∉ (rules.plainText term).toList :=
      hterm.not_mem Dialect.governs_python (by decide) (by decide)
    rw [hmarked] at hequals
    exact hequals (by simp)

/-- Every statement is on one line. -/
theorem lineFeed_not_mem (h : Dialect.python.WritableItem item) :
    '\n' ∉ (rules.plainText item).toList := by
  refine h.not_mem Dialect.governs_python (by decide) (by decide) fun name text hname htext => ?_
  have hescaped : '\n' ∉ (identifier name).toList := hname.not_mem (by decide)
  change '\n' ∉ (identifier name ++ " = " ++ text).toList
  simp [hescaped, htext]

theorem render_plainText (program : Program) :
    Backend.python.render program none =
      "\n".intercalate (program.body.map rules.plainText) := by
  change rules.render program = _
  rw [Rules.render_eq]
  exact congrArg ("\n".intercalate ·) (Rules.texts_plainText program.body)

end Python

/-! ### JavaScript without definitions -/

namespace JavaScript

/-- **Of the texts of the items, those of the definitions are empty**, and no others; and no text has a
semicolon inside. By induction on the items: a definition adds to the record a tree that can be
written. -/
theorem texts_inliningRules {items : List Term} {expansions : Expansions}
    (hitems : ∀ item ∈ items, Dialect.javaScript.WritableItem item)
    (hrecord : ∀ entry ∈ expansions, Dialect.javaScript.Writable entry.2) :
    List.Forall₂ (fun item text => text = "" ↔ item.isDefinition = true) items
        (inliningRules.texts [] items (expansions.texts rules)).1 ∧
      ∀ text ∈ (inliningRules.texts [] items (expansions.texts rules)).1, ';' ∉ text.toList := by
  induction items generalizing expansions with
  | nil => exact ⟨.nil, List.forall_mem_nil _⟩
  | cons item rest ih =>
    obtain ⟨hitem, hrest⟩ := List.forall_mem_cons.mp hitems
    rw [Rules.texts_cons, inliningRules_inlines.text_expand]
    cases hitem with
    | @definition name value hname hvalue =>
      have htree : Dialect.javaScript.Writable (value.inline expansions []) := hvalue.inline hrecord
      rw [Term.expand_definition, Term.expand_of_isExpression value hvalue.isExpression]
      have hadded : ∀ entry ∈ (name, value.inline expansions []) :: expansions,
          Dialect.javaScript.Writable entry.2 := List.forall_mem_cons.mpr ⟨htree, hrecord⟩
      obtain ⟨htexts, hsemicolon⟩ := ih hrest hadded
      refine ⟨.cons ⟨fun _ => rfl, fun _ => rfl⟩ htexts, ?_⟩
      exact List.forall_mem_cons.mpr ⟨List.not_mem_nil, hsemicolon⟩
    | expression hterm =>
      have htree : Dialect.javaScript.Writable (item.inline expansions []) := hterm.inline hrecord
      rw [Term.expand_of_isExpression item hterm.isExpression]
      obtain ⟨htexts, hsemicolon⟩ := ih hrest hrecord
      refine ⟨.cons ⟨fun hempty => ?_, fun hdefinition => ?_⟩ htexts, ?_⟩
      · exact absurd hempty (htree.ne_empty Dialect.governs_javaScript)
      · cases hterm.isDefinition_eq.symm.trans hdefinition
      · exact List.forall_mem_cons.mpr ⟨semicolon_not_mem (.expression htree), hsemicolon⟩

end JavaScript

namespace Program

section Filter

variable {items : List Term} {texts : List String}

/-- As many texts are not empty as there are items besides the definitions. -/
theorem length_filter_texts
    (h : List.Forall₂ (fun item text => text = "" ↔ item.isDefinition = true) items texts) :
    (texts.filter fun text => !text.isEmpty).length = items.countP fun item => !item.isDefinition := by
  induction h with
  | nil => rfl
  | @cons item text items texts htext _ ih =>
    have hempty : text.isEmpty = item.isDefinition := by
      rw [Bool.eq_iff_iff, String.isEmpty_iff, htext]
    rw [← List.countP_eq_length_filter] at ih ⊢
    rw [List.countP_cons, List.countP_cons, ih, hempty]

/-- With definitions only, no text is left. -/
theorem filter_texts_eq_nil
    (h : List.Forall₂ (fun item text => text = "" ↔ item.isDefinition = true) items texts)
    (hall : ∀ item ∈ items, item.isDefinition) : (texts.filter fun text => !text.isEmpty) = [] := by
  have hnone : items.countP (fun item => !item.isDefinition) = 0 := by
    rw [List.countP_eq_zero]
    intro item hitem
    simp [hall item hitem]
  exact List.eq_nil_of_length_eq_zero ((length_filter_texts h).trans hnone)

/-- The texts that are left are told apart by semicolons and line feeds. -/
theorem split_filter_texts
    (h : List.Forall₂ (fun item text => text = "" ↔ item.isDefinition = true) items texts)
    (hsemicolon : ∀ text ∈ texts, ';' ∉ text.toList)
    (hitem : ∃ item ∈ items, item.isDefinition = false) :
    Text.split ";\n" (";\n".intercalate (texts.filter fun text => !text.isEmpty)) =
      texts.filter fun text => !text.isEmpty := by
  obtain ⟨item, hitem, hexpression⟩ := hitem
  have hpos : 0 < items.countP fun item => !item.isDefinition :=
    List.countP_pos_iff.mpr ⟨item, hitem, by simp [hexpression]⟩
  refine Text.split_intercalate rfl (List.ne_nil_of_length_pos ?_) fun text htext => ?_
  · rw [length_filter_texts h]
    exact hpos
  · exact hsemicolon text (List.mem_of_mem_filter htext)

end Filter

/-- **Statements and items correspond one to one**, in a compiled program whose definitions stand at the
top. The output of JavaScript is empty if there is no item; otherwise a semicolon ends it, and what stands
before splits into one statement for each item, in order. So does the output of Python, at its line
feeds. Without definitions, the text of an item is empty exactly if the item is a definition, so that
the output of JavaScript is empty if there are only definitions and otherwise splits into the texts of the
other items, none of them left out. -/
theorem statements_correspond {source : String} {program : Program}
    (h : compile source = .ok program) (hdefines : program.definesAtTop) :
    (Backend.javaScript.render program none = "" ↔ program.body = []) ∧
    (program.body ≠ [] → ∃ text, Backend.javaScript.render program none = text ++ ";" ∧
      List.Forall₂ JavaScript.IsStatement program.body (Text.split ";\n" text)) ∧
    (program.body ≠ [] → List.Forall₂ Python.IsStatement program.body
      (Text.split "\n" (Backend.python.render program none))) ∧
    ∀ texts, (JavaScript.inliningRules.items program.body JavaScript.inliningRules.start).1 = texts →
      List.Forall₂ (fun item text => text = "" ↔ item.isDefinition = true) program.body texts ∧
      ((∀ item ∈ program.body, item.isDefinition) →
        Backend.javaScriptInline.render program none = "") ∧
      ((∃ item ∈ program.body, item.isDefinition = false) →
        Text.split ";\n" (Backend.javaScriptInline.render program none) =
          texts.filter (fun text => !text.isEmpty) ∧
        (Text.split ";\n" (Backend.javaScriptInline.render program none)).length =
          program.body.countP fun item => !item.isDefinition) := by
  have hjavaScript : ∀ item ∈ program.body, Dialect.javaScript.WritableItem item := fun _ hitem =>
    Dialect.writableItem_of_compile JavaScript.unscored_reserved h hdefines hitem
  have hpython : ∀ item ∈ program.body, Dialect.python.WritableItem item := fun _ hitem =>
    Dialect.writableItem_of_compile Python.unscored_reserved h hdefines hitem
  refine ⟨JavaScript.render_eq_empty_iff, fun hne => ?_, fun hne => ?_, ?_⟩
  · refine ⟨_, JavaScript.render_plainText hne, ?_⟩
    rw [Text.split_intercalate rfl (by simpa using hne)
      (List.forall_mem_map.mpr fun item hitem => JavaScript.semicolon_not_mem (hjavaScript item hitem))]
    exact List.forall₂_map_right_iff.mpr (List.forall₂_same.mpr fun item hitem =>
      JavaScript.isStatement_plainText (hjavaScript item hitem))
  · rw [Python.render_plainText, Text.split_intercalate rfl (by simpa using hne)
      (List.forall_mem_map.mpr fun item hitem => Python.lineFeed_not_mem (hpython item hitem))]
    exact List.forall₂_map_right_iff.mpr (List.forall₂_same.mpr fun item hitem =>
      Python.isStatement_plainText (hpython item hitem))
  · rintro texts rfl
    have hrender : Backend.javaScriptInline.render program none = ";\n".intercalate
        ((JavaScript.inliningRules.items program.body JavaScript.inliningRules.start).1.filter
          fun text => !text.isEmpty) := rfl
    rw [hrender, Rules.items_eq]
    obtain ⟨htexts, hsemicolon⟩ := JavaScript.texts_inliningRules hjavaScript (List.forall_mem_nil _)
    refine ⟨htexts, fun hall => ?_, fun hitem => ?_⟩
    · exact congrArg (";\n".intercalate ·) (filter_texts_eq_nil htexts hall)
    · have hsplit := split_filter_texts htexts hsemicolon hitem
      exact ⟨hsplit, (congrArg List.length hsplit).trans (length_filter_texts htexts)⟩

/-- A definition of a name that JavaScript reserves, and a use of it. -/
def constDefined : Program where
  body := [.definition "const" (.abstraction "x" (.atom "x")), .application (.atom "const") (.atom "y")]

theorem statements_correspond_constDefined :
    compile "(let const (λ x x)) (const y)" = .ok constDefined ∧ constDefined.definesAtTop ∧
    (∃ text, Backend.javaScript.render constDefined none = text ++ ";" ∧
      List.Forall₂ JavaScript.IsStatement constDefined.body (Text.split ";\n" text)) ∧
    List.Forall₂ Python.IsStatement constDefined.body
      (Text.split "\n" (Backend.python.render constDefined none)) ∧
    (Text.split ";\n" (Backend.javaScriptInline.render constDefined none)).length = 1 := by
  have hcompile : compile "(let const (λ x x)) (const y)" = .ok constDefined := by
    rw [compile_eq]
    rfl
  have hne : constDefined.body ≠ [] := List.cons_ne_nil _ _
  obtain ⟨-, hjavaScript, hpython, hinline⟩ := statements_correspond hcompile rfl
  refine ⟨hcompile, rfl, hjavaScript hne, hpython hne, ?_⟩
  exact ((hinline _ rfl).2.2 ⟨_, List.mem_cons_of_mem _ List.mem_cons_self, rfl⟩).2

end Program

end ParenLambda
