import ParenLambda.Proofs.Inlining.Expansion
import ParenLambda.Proofs.Printing
import ParenLambda.Proofs.Rendering.Walk

/-!
# Renaming, and what a name refers to

A map of names, applied to all the names of a program at once, can change what a name refers to: two
names may become one, and then the nearer of their binders takes the references of both. This file
says exactly when that happens, for any map.

An occurrence of a name (`ParenLambda.Occurrence`) is kept with all the names that it can refer to: the
parameters of the abstractions around it, innermost first, and then the names that the program defines,
the last definition first. It refers to the first of them that is its own name
(`ParenLambda.Occurrence.binder`). After renaming it refers to the same one unless, on the way out to
it, another name is met that has become the same (`ParenLambda.Occurrence.binder_rename_iff`).
-/

namespace ParenLambda

/-! ### Renamed terms -/

namespace Term

mutual

/-- A term with all its names replaced: those it defines, its parameters and its atoms. -/
def rename (f : String → String) : Term → Term
  | atom name => atom (f name)
  | definition name value => definition (f name) (value.rename f)
  | abstraction parameter body => abstraction (f parameter) (body.rename f)
  | application operator operand => application (operator.rename f) (operand.rename f)
  | sequence members => sequence (renameAll f members)

/-- A list of terms with all their names replaced. -/
def renameAll (f : String → String) : List Term → List Term
  | [] => []
  | term :: rest => term.rename f :: renameAll f rest

end

variable (f : String → String)

theorem renameAll_eq (terms : List Term) : renameAll f terms = terms.map (rename f) := by
  induction terms with
  | nil => rfl
  | cons term rest ih => rw [renameAll, ih, List.map_cons]

/-- A map that changes no name changes no term. -/
theorem rename_eq_self {f : String → String} (h : ∀ name, f name = name) (term : Term) :
    term.rename f = term := by
  induction term using Term.induction with
  | atom name => rw [rename, h]
  | definition name value ih => rw [rename, h, ih]
  | abstraction parameter body ih => rw [rename, h, ih]
  | application operator operand ihOperator ihOperand => rw [rename, ihOperator, ihOperand]
  | sequence members ih =>
    have hmembers : members.map (rename f) = members.map id := List.map_congr_left ih
    rw [rename, renameAll_eq, hmembers, List.map_id]

theorem namesAll_eq (terms : List Term) : namesAll terms = terms.flatMap names := by
  induction terms with
  | nil => rfl
  | cons term rest ih => rw [namesAll, ih, List.flatMap_cons]

/-- The names of a renamed term are the renamed names. -/
theorem names_rename (term : Term) : (term.rename f).names = term.names.map f := by
  induction term using Term.induction with
  | atom name => rfl
  | definition name value ih => rw [rename, names, names, ih, List.map_cons]
  | abstraction parameter body ih => rw [rename, names, names, ih, List.map_cons]
  | application operator operand ihOperator ihOperand =>
    rw [rename, names, names, ihOperator, ihOperand, List.map_append]
  | sequence members ih =>
    rw [rename, names, names, renameAll_eq, namesAll_eq, namesAll_eq, List.flatMap_map,
      List.map_flatMap]
    exact congrArg List.flatten (List.map_congr_left ih)

end Term

/-- A program with all its names replaced. -/
def Program.rename (f : String → String) (program : Program) : Program :=
  ⟨Term.renameAll f program.body⟩

namespace Rules

variable {σ : Type} {rules : Rules σ} {f : String → String}

/-- **A table that writes renamed names as it writes the names**, bound or not. -/
structure Writes (rules : Rules σ) (f : String → String) : Prop where
  /-- In a definition. -/
  definition : ∀ name value, rules.definition (f name) value = rules.definition name value
  /-- In an abstraction. -/
  abstraction : ∀ parameter body, rules.abstraction (f parameter) body = rules.abstraction parameter body
  /-- As an atom. -/
  atom : ∀ name bound bound', rules.atom (f name) bound = rules.atom name bound'

theorem texts_rename_of_forall {scope scope' : List String} {terms : List Term}
    (h : ∀ term ∈ terms, rules.text scope' (term.rename f) = rules.text scope term) :
    rules.texts scope' (Term.renameAll f terms) = rules.texts scope terms := by
  induction terms with
  | nil => rfl
  | cons term rest ih =>
    have hrest := ih fun other hother => h other (List.mem_cons_of_mem _ hother)
    rw [Term.renameAll, texts, texts, h term List.mem_cons_self, hrest]

/-- The text of a renamed term is the text of the term. -/
theorem Writes.text_rename (h : rules.Writes f) (scope scope' : List String) (term : Term) :
    rules.text scope' (term.rename f) = rules.text scope term := by
  induction term using Term.induction generalizing scope scope' with
  | atom name => rw [Term.rename, text, text, h.atom]
  | definition name value ih =>
    rw [Term.rename, text, text, ih scope]
    simp only [h.definition]
  | abstraction parameter body ih =>
    rw [Term.rename, text, text, ih (parameter :: scope)]
    simp only [h.abstraction]
  | application operator operand ihOperator ihOperand =>
    rw [Term.rename, text, text, ihOperator scope, ihOperand scope]
  | sequence members ih =>
    rw [Term.rename, text, text, texts_rename_of_forall fun member hmember =>
      ih member hmember scope scope']

/-- **The text of a renamed program is the text of the program.** -/
theorem Writes.render_rename (h : rules.Writes f) (program : Program) :
    rules.render (program.rename f) = rules.render program := by
  have htexts : rules.texts [] (program.rename f).body = rules.texts [] program.body :=
    texts_rename_of_forall fun term _ => h.text_rename [] [] term
  rw [render_eq, render_eq, htexts]

end Rules

/-! ### Occurrences and binders -/

/-- **What a name refers to.** -/
inductive Binder where
  /-- The parameter of an abstraction around the name, by the number of abstractions between. -/
  | parameter (depth : Nat)
  /-- A definition of the program, by the number of definitions behind it. -/
  | definition (position : Nat)
  /-- Nothing in the program. -/
  | free
  deriving DecidableEq, Repr

/-- **An occurrence of a name in a program.** -/
structure Occurrence where
  /-- The name. -/
  name : String
  /-- The parameters of the abstractions around it, innermost first. -/
  parameters : List String
  /-- The names that the program defines, last first. -/
  definitions : List String
  deriving DecidableEq, Repr

namespace Occurrence

/-- **What an occurrence refers to**: the innermost abstraction around it with that parameter, else the
last definition of that name, else nothing. -/
def binder (occurrence : Occurrence) : Binder :=
  match occurrence.parameters.idxOf? occurrence.name with
  | some depth => .parameter depth
  | none =>
    match occurrence.definitions.idxOf? occurrence.name with
    | some position => .definition position
    | none => .free

/-- The names that an occurrence can refer to, nearest first. -/
def reach (occurrence : Occurrence) : List String :=
  occurrence.parameters ++ occurrence.definitions

/-- The occurrence in the renamed program. -/
def rename (f : String → String) (occurrence : Occurrence) : Occurrence :=
  ⟨f occurrence.name, occurrence.parameters.map f, occurrence.definitions.map f⟩

end Occurrence

namespace Term

mutual

/-- The occurrences of names in a term, in order, inside abstractions with the given parameters. -/
def occurrences (definitions parameters : List String) : Term → List Occurrence
  | atom name => [⟨name, parameters, definitions⟩]
  | definition _ value => value.occurrences definitions parameters
  | abstraction parameter body => body.occurrences definitions (parameter :: parameters)
  | application operator operand =>
    operator.occurrences definitions parameters ++ operand.occurrences definitions parameters
  | sequence members => occurrencesAll definitions parameters members

/-- The occurrences of names in a list of terms, in order. -/
def occurrencesAll (definitions parameters : List String) : List Term → List Occurrence
  | [] => []
  | term :: rest =>
    term.occurrences definitions parameters ++ occurrencesAll definitions parameters rest

end

variable (definitions parameters : List String)

theorem occurrencesAll_eq (terms : List Term) :
    occurrencesAll definitions parameters terms =
      terms.flatMap (occurrences definitions parameters) := by
  induction terms with
  | nil => rfl
  | cons term rest ih => rw [occurrencesAll, ih, List.flatMap_cons]

variable (f : String → String)

theorem occurrences_rename (term : Term) :
    (term.rename f).occurrences (definitions.map f) (parameters.map f) =
      (term.occurrences definitions parameters).map (Occurrence.rename f) := by
  induction term using Term.induction generalizing parameters with
  | atom name => rfl
  | definition name value ih => rw [rename, occurrences, occurrences, ih]
  | abstraction parameter body ih =>
    rw [rename, occurrences, occurrences, ← ih, List.map_cons]
  | application operator operand ihOperator ihOperand =>
    rw [rename, occurrences, occurrences, ihOperator, ihOperand, List.map_append]
  | sequence members ih =>
    rw [rename, occurrences, occurrences, renameAll_eq, occurrencesAll_eq, occurrencesAll_eq,
      List.flatMap_map, List.map_flatMap]
    refine congrArg List.flatten (List.map_congr_left ?_)
    exact fun member hmember => ih member hmember parameters

end Term

namespace Program

/-- **The occurrences of names in a program**, in order. -/
def occurrences (program : Program) : List Occurrence :=
  Term.occurrencesAll program.definedNames.reverse [] program.body

theorem definedNames_rename (f : String → String) (program : Program) :
    (program.rename f).definedNames = program.definedNames.map f := by
  obtain ⟨body⟩ := program
  induction body with
  | nil => rfl
  | cons term rest ih =>
    have hcons : ∀ term rest, definedNames ⟨term :: rest⟩ =
        definedNames ⟨[term]⟩ ++ definedNames ⟨rest⟩ := by
      intro term rest
      cases term <;> rfl
    have hterm : definedNames ⟨[term.rename f]⟩ = (definedNames ⟨[term]⟩).map f := by
      cases term <;> rfl
    change definedNames ⟨term.rename f :: Term.renameAll f rest⟩ = _
    rw [hcons, hcons term, List.map_append, ← ih, hterm]
    rfl

/-- **The occurrences in a renamed program are the renamed occurrences.** -/
theorem occurrences_rename (f : String → String) (program : Program) :
    (program.rename f).occurrences = program.occurrences.map (Occurrence.rename f) := by
  rw [occurrences, occurrences, definedNames_rename, ← List.map_reverse]
  have h := Term.occurrences_rename program.definedNames.reverse [] f (.sequence program.body)
  rw [Term.rename, Term.occurrences, Term.occurrences] at h
  exact h

end Program

/-! ### When renaming keeps what a name refers to -/

namespace Occurrence

/-- **A name is the first of its like**: any name of the list that is renamed to the same, with the
name itself not before it, is that name. -/
def KeptIn (f : String → String) (name : String) (list : List String) : Prop :=
  ∀ near other far, list = near ++ other :: far → name ∉ near → f other = f name → other = name

variable {f : String → String} {name : String}

theorem keptIn_nil : KeptIn f name [] := by
  intro near other far h
  cases near <;> cases h

theorem keptIn_cons {first : String} {rest : List String} :
    KeptIn f name (first :: rest) ↔
      (f first = f name → first = name) ∧ (first ≠ name → KeptIn f name rest) := by
  constructor
  · intro h
    refine ⟨h [] first rest rfl List.not_mem_nil, ?_⟩
    rintro hfirst near other far rfl hnear
    refine h (first :: near) other far rfl ?_
    rw [List.mem_cons, not_or]
    exact ⟨Ne.symm hfirst, hnear⟩
  · rintro ⟨hfirst, hrest⟩ near other far hlist hnear
    cases near with
    | nil =>
      obtain ⟨rfl, -⟩ := List.cons.inj hlist
      exact hfirst
    | cons passed near =>
      obtain ⟨rfl, hnext⟩ := List.cons.inj hlist
      rw [List.mem_cons, not_or] at hnear
      exact hrest (Ne.symm hnear.1) near other far hnext hnear.2

theorem keptIn_append {left right : List String} :
    KeptIn f name (left ++ right) ↔ KeptIn f name left ∧ (name ∉ left → KeptIn f name right) := by
  induction left with
  | nil => simp [keptIn_nil]
  | cons first left ih =>
    rw [List.cons_append, keptIn_cons, keptIn_cons, ih, List.mem_cons, not_or]
    constructor
    · rintro ⟨hfirst, hrest⟩
      exact ⟨⟨hfirst, fun hne => (hrest hne).1⟩, fun h => (hrest (Ne.symm h.1)).2 h.2⟩
    · rintro ⟨⟨hfirst, hleft⟩, hright⟩
      exact ⟨hfirst, fun hne => ⟨hleft hne, fun h => hright ⟨Ne.symm hne, h⟩⟩⟩

/-- **Renaming keeps the place of a name in a list** exactly if the name is the first of its like. -/
theorem idxOf?_map_iff {list : List String} :
    (list.map f).idxOf? (f name) = list.idxOf? name ↔ KeptIn f name list := by
  induction list with
  | nil => simp [keptIn_nil]
  | cons first rest ih =>
    rw [List.map_cons, List.idxOf?_cons, List.idxOf?_cons, keptIn_cons]
    by_cases hfirst : first = name
    · simp [hfirst]
    · by_cases hclash : f first = f name
      · -- The renamed name is found at once, and the name only later.
        cases rest.idxOf? name <;> simp [hfirst, hclash]
      · simp [hfirst, hclash, ← ih, Option.map_inj_right]

/-- **What an occurrence refers to is kept by renaming** exactly if no other name that is renamed to the
same is met on the way to it. -/
theorem binder_rename_iff (f : String → String) (occurrence : Occurrence) :
    (occurrence.rename f).binder = occurrence.binder ↔
      KeptIn f occurrence.name occurrence.reach := by
  obtain ⟨name, parameters, definitions⟩ := occurrence
  rw [reach, keptIn_append, ← idxOf?_map_iff, ← idxOf?_map_iff, binder, binder]
  simp only [rename]
  cases hdepth : parameters.idxOf? name with
  | some depth =>
    have hmem : name ∈ parameters := Decidable.byContradiction fun h => by
      rw [List.idxOf?_eq_none_iff.mpr h] at hdepth
      cases hdepth
    cases (parameters.map f).idxOf? (f name) with
    | some depth' => simp [hmem]
    | none => cases (definitions.map f).idxOf? (f name) <;> simp
  | none =>
    have hmem : name ∉ parameters := List.idxOf?_eq_none_iff.mp hdepth
    cases (parameters.map f).idxOf? (f name) with
    -- A parameter that becomes the same takes the reference away from what it was.
    | some depth' => cases definitions.idxOf? name <;> simp
    | none =>
      cases (definitions.map f).idxOf? (f name) <;> cases definitions.idxOf? name <;> simp [hmem]

end Occurrence

end ParenLambda
