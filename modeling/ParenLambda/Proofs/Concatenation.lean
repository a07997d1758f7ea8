import ParenLambda.Compile
import ParenLambda.Proofs.Bytes
import ParenLambda.Proofs.Shifting
import ParenLambda.Proofs.Worklist

/-!
# Compiling one text behind another

An assembled source is the base library, a line feed and the user's source. Whatever the first text
ends in, the line feed ends it: a comment, a run of characters, blanks. If the first text compiles by
itself, the program of the whole is the program of the first followed by that of the second, and a
fault of the second is the fault of the whole, at a place further right.
-/

namespace ParenLambda

namespace Term

theorem ofForms_append (left right : List Form) :
    ofForms (left ++ right) =
      match ofForms left with
      | .error fault => .error fault
      | .ok terms => (ofForms right).map (terms ++ ·) := by
  induction left with
  | nil =>
    rw [List.nil_append, ofForms]
    cases ofForms right <;> rfl
  | cons form rest ih =>
    rw [List.cons_append, ofForms, ofForms, ih]
    cases ofForm form with
    | error fault => rfl
    | ok head =>
      cases ofForms rest with
      | error fault => rfl
      | ok tail => cases ofForms right <;> rfl

end Term

/-- The forms of a text behind another and a line feed, if the first text can be read. -/
theorem Form.parse_lineFeed {left : String} {forms : List Form} (h : Form.parse left = .ok forms)
    (right : String) :
    Form.parse (left ++ "\n" ++ right) =
      (((Form.parse right).map (List.map (Form.shift (left.utf8ByteSize + 1)))).mapError
        (Fault.shift (left.utf8ByteSize + 1))).map (forms ++ ·) := by
  have hscan := Fragment.lexemesFrom_shift .between 0 (left.utf8ByteSize + 1) right.toList
  rw [Nat.zero_add] at hscan
  rw [Form.parse, Token.scan_lineFeed, Form.read_append h, Text.byteSize_toList]
  exact congrArg (Except.map _)
    ((congrArg Form.read hscan).trans (Form.readFrom_shift _ Form.Progress.empty _))

namespace Program

/-- Compiling is parsing, and then making the terms of the forms. -/
theorem compile_eq (source : String) :
    compile source =
      match Form.parse source with
      | .error fault => .error fault
      | .ok forms => (Term.ofForms forms).map Program.mk := by
  rw [compile]
  cases Form.parse source with
  | error fault => rfl
  | ok forms => exact ofForms_eq forms

/-- A source that compiles has forms, whose terms are the program. -/
theorem parse_of_compile {source : String} {program : Program} (h : compile source = .ok program) :
    ∃ forms, Form.parse source = .ok forms ∧ Term.ofForms forms = .ok program.body := by
  rw [compile_eq] at h
  cases hparse : Form.parse source with
  | error fault => simp [hparse] at h
  | ok forms =>
    cases hterms : Term.ofForms forms with
    | error fault => simp [hparse, hterms, Except.map] at h
    | ok terms =>
      obtain rfl : Program.mk terms = program := by simpa [hparse, hterms, Except.map] using h
      exact ⟨forms, rfl, hterms⟩

/-- Compiling a text behind one that compiles and a line feed. -/
theorem compile_lineFeed {left : String} {first : Program} (h : compile left = .ok first)
    (right : String) :
    compile (left ++ "\n" ++ right) =
      ((compile right).map fun second => ⟨first.body ++ second.body⟩).mapError
        (Fault.shift (left.utf8ByteSize + 1)) := by
  obtain ⟨forms, hforms, hfirst⟩ := parse_of_compile h
  rw [compile_eq, compile_eq right, Form.parse_lineFeed hforms]
  cases Form.parse right with
  | error fault => rfl
  | ok others =>
    have hterms := Term.ofForms_append forms (others.map (Form.shift (left.utf8ByteSize + 1)))
    rw [hfirst, Term.ofForms_shift] at hterms
    -- The first text has no fault, so what is left is the outcome of the second.
    change (Term.ofForms (forms ++ others.map (Form.shift (left.utf8ByteSize + 1)))).map Program.mk =
      (((Term.ofForms others).map Program.mk).map fun second =>
        Program.mk (first.body ++ second.body)).mapError (Fault.shift (left.utf8ByteSize + 1))
    rw [hterms]
    cases Term.ofForms others <;> rfl

/-- **Compiling is compositional.** If a text compiles, then a text behind it and a line feed adds its
program to the first one's, and its fault, if it has one, is found where the text now stands: the same
fault, with every place moved by the bytes of the first text and of the line feed. -/
theorem compile_compositional (left right : String) (first : Program)
    (h : compile left = .ok first) :
    (∀ second, compile right = .ok second →
      compile (left ++ "\n" ++ right) = .ok ⟨first.body ++ second.body⟩) ∧
    (∀ fault, compile right = .error fault →
      compile (left ++ "\n" ++ right) = .error (fault.shift (left.utf8ByteSize + 1))) := by
  constructor
  · intro second hsecond
    rw [compile_lineFeed h, hsecond]
    rfl
  · intro fault hfault
    rw [compile_lineFeed h, hfault]
    rfl

/-- A text that ends in a comment, with one that compiles and one that does not behind it. -/
theorem compile_compositional_comment :
    compile "(let I (λ x x)) ; end" = .ok ⟨[.definition "I" (.abstraction "x" (.atom "x"))]⟩ ∧
    compile ("(let I (λ x x)) ; end" ++ "\n" ++ "I") =
      .ok ⟨[.definition "I" (.abstraction "x" (.atom "x")), .atom "I"]⟩ ∧
    compile ("(let I (λ x x)) ; end" ++ "\n" ++ "I (let") =
      .error (.missingName .definition Form.endOfInput 29) := by
  have hleft : compile "(let I (λ x x)) ; end" =
      .ok ⟨[.definition "I" (.abstraction "x" (.atom "x"))]⟩ := by
    rw [compile_eq]
    rfl
  have hright : compile "I" = .ok ⟨[.atom "I"]⟩ := by
    rw [compile_eq]
    rfl
  have hfault : compile "I (let" = .error (.missingName .definition Form.endOfInput 6) := by
    rw [compile_eq]
    rfl
  exact ⟨hleft, (compile_compositional _ _ _ hleft).1 _ hright,
    (compile_compositional _ _ _ hleft).2 _ hfault⟩

end Program

end ParenLambda
