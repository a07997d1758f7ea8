import ParenLambda.Backend.Named
import ParenLambda.Proofs.Concatenation
import ParenLambda.Proofs.Renaming

/-!
# Reserved words and what names refer to

A backend with named bindings puts an underscore behind a name that its target reserves. What it writes
is the text of the program with all names escaped, and no escaped name is reserved; so a target reads
the escaped names, and they should refer to what the names refer to.

They do not always. A reserved word with an underscore behind it is a name of its own, and escaping
makes the two one: in `(λ new (λ new_ new))` the inner parameter takes the reference to the outer one
(`ParenLambda.Program.escaping_captures`). No two other names become one
(`ParenLambda.Backend.escape_eq_iff`), which gives the exact condition: a name refers to what it did,
unless it is one of such a pair and the other one is bound nearer.
-/

namespace ParenLambda

/-! ### Escaped names -/

namespace Backend

/-- **A reserved word and the name that escaping makes of it.** -/
def Collides (reserved : List String) (word name : String) : Prop :=
  word ∈ reserved ∧ name = word ++ "_"

instance (reserved : List String) (word name : String) : Decidable (Collides reserved word name) :=
  inferInstanceAs (Decidable (_ ∧ _))

/-- No reserved word ends in an underscore. -/
def Unscored (reserved : List String) : Prop :=
  ∀ word ∈ reserved, word.toList.getLast? ≠ some '_'

instance (reserved : List String) : Decidable (Unscored reserved) :=
  inferInstanceAs (Decidable (∀ word ∈ reserved, _))

variable {reserved : List String} {name other : String}

theorem escape_of_mem (h : name ∈ reserved) : escape reserved name = name ++ "_" :=
  if_pos (List.contains_iff_mem.mpr h)

theorem escape_of_not_mem (h : name ∉ reserved) : escape reserved name = name := by
  rw [escape, List.contains_eq_mem, decide_eq_false h]
  rfl

theorem Unscored.append_not_mem (h : Unscored reserved) (word : String) :
    word ++ "_" ∉ reserved := by
  intro hmem
  refine h _ hmem ?_
  rw [String.toList_append]
  exact List.getLast?_concat

/-- **No escaped name is reserved.** -/
theorem Unscored.escape_not_mem (h : Unscored reserved) (name : String) :
    escape reserved name ∉ reserved := by
  by_cases hmem : name ∈ reserved
  · rw [escape_of_mem hmem]
    exact h.append_not_mem name
  · rwa [escape_of_not_mem hmem]

theorem Unscored.escape_escape (h : Unscored reserved) (name : String) :
    escape reserved (escape reserved name) = escape reserved name :=
  escape_of_not_mem (h.escape_not_mem name)

theorem append_underscore_inj {left right : String} (h : left ++ "_" = right ++ "_") :
    left = right := by
  have hlist := congrArg String.toList h
  rw [String.toList_append, String.toList_append] at hlist
  exact String.toList_injective (List.append_cancel_right hlist)

/-- **Escaping makes two names one only if one is reserved and the other is that word with the
underscore.** -/
theorem escape_eq_iff :
    escape reserved other = escape reserved name ↔
      other = name ∨ (Collides reserved other name ∧ name ∉ reserved) ∨
        (Collides reserved name other ∧ other ∉ reserved) := by
  by_cases hother : other ∈ reserved <;> by_cases hname : name ∈ reserved
  · rw [escape_of_mem hother, escape_of_mem hname]
    simp only [hother, hname, not_true_eq_false, and_false, or_false]
    exact ⟨append_underscore_inj, congrArg (· ++ "_")⟩
  · rw [escape_of_mem hother, escape_of_not_mem hname]
    simp only [Collides, hother, hname, true_and, not_false_eq_true, and_true, false_and, or_false]
    constructor
    · exact fun h => Or.inr h.symm
    · rintro (rfl | rfl)
      · exact absurd hother hname
      · rfl
  · rw [escape_of_not_mem hother, escape_of_mem hname]
    simp only [Collides, hother, hname, true_and, not_false_eq_true, and_true, false_and, false_or]
    constructor
    · exact Or.inr
    · rintro (rfl | rfl)
      · exact absurd hname hother
      · rfl
  · rw [escape_of_not_mem hother, escape_of_not_mem hname]
    simp [Collides, hother, hname]

end Backend

/-! ### Captured occurrences -/

open Backend

/-- **An occurrence is captured by escaping**: on the way to what it refers to, a name stands that goes
with it as a reserved word and that word with an underscore. -/
def Occurrence.Captured (reserved : List String) (occurrence : Occurrence) : Prop :=
  ∃ near other far, occurrence.reach = near ++ other :: far ∧ occurrence.name ∉ near ∧
    (Collides reserved other occurrence.name ∨ Collides reserved occurrence.name other)

theorem Backend.Unscored.keptIn_iff {reserved : List String} (h : Unscored reserved)
    (occurrence : Occurrence) :
    Occurrence.KeptIn (escape reserved) occurrence.name occurrence.reach ↔
      ¬occurrence.Captured reserved := by
  -- Of two names that collide, the one with the underscore is not reserved, and they are different.
  have hother : ∀ {word name}, Collides reserved word name → name ∉ reserved ∧ word ≠ name := by
    rintro word name ⟨hword, rfl⟩
    refine ⟨h.append_not_mem word, fun heq => ?_⟩
    rw [heq] at hword
    exact h.append_not_mem word hword
  constructor
  · rintro hkept ⟨near, other, far, hreach, hnear, hcollides⟩
    have hequal : other = occurrence.name := by
      refine hkept near other far hreach hnear (escape_eq_iff.mpr (Or.inr ?_))
      exact hcollides.imp (fun hc => ⟨hc, (hother hc).1⟩) fun hc => ⟨hc, (hother hc).1⟩
    rcases hcollides with hcollides | hcollides
    · exact (hother hcollides).2 hequal
    · exact (hother hcollides).2 hequal.symm
  · intro hcaptured near other far hreach hnear hescape
    rcases escape_eq_iff.mp hescape with hequal | ⟨hcollides, -⟩ | ⟨hcollides, -⟩
    · exact hequal
    · exact absurd ⟨near, other, far, hreach, hnear, Or.inl hcollides⟩ hcaptured
    · exact absurd ⟨near, other, far, hreach, hnear, Or.inr hcollides⟩ hcaptured

/-! ### The named backends -/

/-- **What a backend that escapes reserved words does with the names of a program.** -/
structure Program.EscapedBy (backend : Backend) (reserved : List String) (program : Program) :
    Prop where
  /-- The text is that of the program with its names escaped. -/
  render : ∀ prelude,
    backend.render (program.rename (escape reserved)) prelude = backend.render program prelude
  /-- No escaped name is reserved. -/
  names : ∀ name ∈ (program.rename (escape reserved)).names, name ∉ reserved
  /-- The occurrences of names are the escaped ones. -/
  occurrences : (program.rename (escape reserved)).occurrences =
    program.occurrences.map (Occurrence.rename (escape reserved))
  /-- An occurrence refers to what it did, unless it is captured. -/
  binder_iff : ∀ occurrence ∈ program.occurrences,
    (occurrence.rename (escape reserved)).binder = occurrence.binder ↔
      ¬occurrence.Captured reserved

theorem Program.escapedBy_of_render {backend : Backend} {reserved : List String}
    (hreserved : Unscored reserved) {program : Program}
    (hrender : ∀ prelude,
      backend.render (program.rename (escape reserved)) prelude = backend.render program prelude) :
    EscapedBy backend reserved program := by
  refine ⟨hrender, ?_, occurrences_rename _ _, ?_⟩
  · intro name hname
    have hnames : (program.rename (escape reserved)).names = program.names.map (escape reserved) :=
      Term.names_rename (escape reserved) (.sequence program.body)
    rw [hnames] at hname
    obtain ⟨unescaped, -, rfl⟩ := List.mem_map.mp hname
    exact hreserved.escape_not_mem unescaped
  · intro occurrence _
    rw [Occurrence.binder_rename_iff, hreserved.keptIn_iff]

theorem JavaScript.unscored_reserved : Unscored reserved := by
  decide

theorem Python.unscored_reserved : Unscored reserved := by
  decide

theorem JavaScript.writes_escape : rules.Writes (escape reserved) := by
  have h : ∀ name, identifier (escape reserved name) = identifier name :=
    unscored_reserved.escape_escape
  refine ⟨fun name value => ?_, fun parameter body => ?_, fun name _ _ => ?_⟩
  · simp only [rules, h]
  · simp only [rules, function, h]
  · simp only [rules, h]

theorem Python.writes_escape : rules.Writes (escape reserved) := by
  have h : ∀ name, identifier (escape reserved name) = identifier name :=
    unscored_reserved.escape_escape
  refine ⟨fun name value => ?_, fun parameter body => ?_, fun name _ _ => ?_⟩ <;>
  · simp only [rules, h]

/-- **Escaping reserved words keeps what every name refers to, but for captured names**, in both
backends with named bindings and for every program. A name is captured only if it is a reserved word
and that word with an underscore is bound nearer, or the other way round. -/
theorem Program.escaping_binders (program : Program) :
    program.EscapedBy .javaScript JavaScript.reserved ∧
      program.EscapedBy .python Python.reserved := by
  constructor
  · refine escapedBy_of_render JavaScript.unscored_reserved fun prelude => ?_
    exact congrArg (withPrelude prelude) (JavaScript.writes_escape.render_rename program)
  · refine escapedBy_of_render Python.unscored_reserved fun prelude => ?_
    exact congrArg (withPrelude prelude) (Python.writes_escape.render_rename program)

/-- **Escaping can change what a name refers to**: two sources whose innermost atom refers to the outer
abstraction, and to the inner one in what is written. -/
theorem Program.escaping_captures :
    (∃ program occurrence, compile "(λ new (λ new_ new))" = .ok program ∧
      occurrence ∈ program.occurrences ∧ occurrence.Captured JavaScript.reserved ∧
      occurrence.binder = .parameter 1 ∧
      (occurrence.rename JavaScript.identifier).binder = .parameter 0 ∧
      Backend.javaScript.render program none = "(new_ => (new_ => new_));") ∧
    (∃ program occurrence, compile "(λ is (λ is_ is))" = .ok program ∧
      occurrence ∈ program.occurrences ∧ occurrence.Captured Python.reserved ∧
      occurrence.binder = .parameter 1 ∧
      (occurrence.rename Python.identifier).binder = .parameter 0 ∧
      Backend.python.render program none = "(lambda is_: (lambda is_: is_))") := by
  constructor
  · refine ⟨⟨[.abstraction "new" (.abstraction "new_" (.atom "new"))]⟩,
      ⟨"new", ["new_", "new"], []⟩, ?_, List.mem_cons_self, ?_, by decide, by decide, ?_⟩
    · rw [compile_eq]
      rfl
    · exact ⟨[], "new_", ["new"], rfl, List.not_mem_nil, Or.inr (by decide)⟩
    · simp only [Backend.javaScript, withPrelude, Rules.render_eq]
      decide
  · refine ⟨⟨[.abstraction "is" (.abstraction "is_" (.atom "is"))]⟩,
      ⟨"is", ["is_", "is"], []⟩, ?_, List.mem_cons_self, ?_, by decide, by decide, ?_⟩
    · rw [compile_eq]
      rfl
    · exact ⟨[], "is_", ["is"], rfl, List.not_mem_nil, Or.inr (by decide)⟩
    · simp only [Backend.python, withPrelude, Rules.render_eq]
      decide

end ParenLambda
