import ParenLambda.Proofs.Concatenation
import ParenLambda.Report

/-!
# The base library in front of a source

The base library compiles, so what it puts in front of a user's source changes neither whether the
source compiles nor the fault that is found in it, but for the place of the fault. Reports undo the
change of place: a byte of the assembled text behind the library is located in the user's file and
counted from the start of that file, which is where the fault lies without the library. So the label of
a fault is the same (`ParenLambda.Label.ofFault?_behind`), and with it the whole report.
-/

namespace ParenLambda

/-! ### The library compiles -/

theorem Text.toList_ofLines_nil : (ofLines []).toList = [] := rfl

theorem Text.toList_ofLines_cons {line : String} {lines : List String} {chars rest : List Char}
    (hline : line.toList = chars) (hlines : (ofLines lines).toList = rest) :
    (ofLines (line :: lines)).toList = chars ++ '\n' :: rest := by
  simp [hline, hlines]

/-- A source compiles if its forms can be read and have terms. -/
theorem Program.exists_compile {source : String}
    (h : ((Form.parse source).bind Term.ofForms).isOk) : ∃ program, compile source = .ok program := by
  rw [compile_eq]
  cases hforms : Form.parse source with
  | error fault =>
    rw [hforms] at h
    exact absurd h Bool.false_ne_true
  | ok forms =>
    rw [hforms] at h
    change (Term.ofForms forms).isOk = true at h
    cases hterms : Term.ofForms forms with
    | error fault =>
      rw [hterms] at h
      exact absurd h Bool.false_ne_true
    | ok terms =>
      refine ⟨⟨terms⟩, ?_⟩
      change (Term.ofForms forms).map mk = _
      rw [hterms]
      rfl

/-- **The base library compiles.** -/
theorem BaseLibrary.exists_compile : ∃ program, Program.compile text = .ok program := by
  have hchars : ∃ chars, text.toList = chars ∧
      ((Form.read ((Fragment.scan chars).map Fragment.lexeme)).bind Term.ofForms).isOk := by
    apply Exists.intro
    constructor
    · -- The characters of each line are read off its literal; computing them from its bytes takes
      -- far longer than all the rest.
      unfold text
      repeat apply Text.toList_ofLines_cons String.toList_ofList
      exact Text.toList_ofLines_nil
    · decide +kernel
  obtain ⟨chars, htext, hterms⟩ := hchars
  refine Program.exists_compile ?_
  rw [Form.parse, Token.scan, htext]
  exact hterms

/-! ### Places behind the library -/

/-- The label of a stretch of the user's source does not depend on what precedes the source. -/
theorem Label.ofSpan_behind (assembly : Assembly) (span : Span) :
    ofSpan assembly (span.shift assembly.userStart) = ofSpan { assembly with lead := "" } span := by
  have hbehind : assembly.locate (span.start + assembly.userStart) =
      ⟨assembly.name, assembly.user, span.start⟩ := by
    rw [Assembly.locate, if_pos (Nat.le_add_left _ _), Nat.add_sub_cancel]
  have halone : Assembly.locate { assembly with lead := "" } span.start =
      ⟨assembly.name, assembly.user, span.start⟩ := by
    have hstart : Assembly.userStart { assembly with lead := "" } = 0 := rfl
    rw [Assembly.locate, hstart, if_pos (Nat.zero_le _), Nat.sub_zero]
  have hsize : (span.shift assembly.userStart).size = span.size := Nat.add_sub_add_right _ _ _
  simp only [ofSpan, hsize, halone]
  rw [Span.shift, hbehind]

theorem Fault.span?_shift (bytes : Nat) (fault : Fault) :
    (fault.shift bytes).span? = fault.span?.map (Span.shift bytes) := by
  cases fault <;> rfl

/-- **The label of a fault behind the library** is that of the fault without the library. -/
theorem Label.ofFault?_behind (assembly : Assembly) (fault : Fault) :
    ofFault? assembly (fault.shift assembly.userStart) =
      ofFault? { assembly with lead := "" } fault := by
  rw [ofFault?, ofFault?, fault.span?_shift, Option.map_map]
  exact congrArg (fault.span?.map ·) (funext fun span => ofSpan_behind assembly span)

theorem Fault.advice?_shift (bytes : Nat) (fault : Fault) :
    (fault.shift bytes).advice? = fault.advice? := by
  cases fault <;> rfl

/-- A report is made of the message, the label and the advice, and of nothing else. -/
theorem Report.write_congr {left right : Assembly} {fault other : Fault}
    (hmessage : fault.message = other.message)
    (hlabel : Label.ofFault? left fault = Label.ofFault? right other)
    (hadvice : fault.advice? = other.advice?) (colours : Bool) :
    write colours left fault = write colours right other := by
  rw [write, write, layout, layout, hmessage, hlabel, hadvice]

/-! ### Faults behind the library -/

namespace Assembly

variable (name user : String)

theorem compile_alone : (make name user false).compile = Program.compile user := by
  rw [compile, text]
  exact congrArg Program.compile (String.empty_append)

/-- Compiling behind the library fails as compiling without it does, further right. -/
theorem compile_behind_base :
    ∃ program : Program, (make name user true).compile =
      ((make name user false).compile.map fun second => ⟨program.body ++ second.body⟩).mapError
        (Fault.shift (make name user true).userStart) := by
  obtain ⟨program, hprogram⟩ := BaseLibrary.exists_compile
  refine ⟨program, ?_⟩
  have hstart : (make name user true).userStart = BaseLibrary.text.utf8ByteSize + 1 := by
    have hfeed : "\n".utf8ByteSize = 1 := rfl
    rw [userStart, make, if_pos rfl, String.utf8ByteSize_append, hfeed]
  rw [compile_alone, hstart]
  exact Program.compile_lineFeed hprogram user

theorem compile_behind_base_error_iff {behind : Fault} :
    (make name user true).compile = .error behind ↔
      ∃ alone, (make name user false).compile = .error alone ∧
        behind = alone.shift (make name user true).userStart := by
  obtain ⟨program, hcompile⟩ := compile_behind_base name user
  rw [hcompile]
  cases (make name user false).compile with
  | error fault =>
    constructor
    · rintro ⟨⟩
      exact ⟨fault, rfl, rfl⟩
    · rintro ⟨_, ⟨⟩, rfl⟩
      rfl
  | ok second =>
    constructor
    · rintro ⟨⟩
    · rintro ⟨_, ⟨⟩, -⟩

/-- **The base library does not disturb reports.** A user's source fails to compile behind the library
exactly if it fails without it. The two faults have the same message, the same label (the same file,
text and stretch of it) and the same advice, and so the same report, plain or with colours. -/
theorem report_behind_base :
    ((∃ fault, (make name user true).compile = .error fault) ↔
      ∃ fault, (make name user false).compile = .error fault) ∧
    ∀ behind alone, (make name user true).compile = .error behind →
      (make name user false).compile = .error alone →
      behind.message = alone.message ∧
      Label.ofFault? (make name user true) behind = Label.ofFault? (make name user false) alone ∧
      behind.advice? = alone.advice? ∧
      ∀ colours, Report.write colours (make name user true) behind =
        Report.write colours (make name user false) alone := by
  constructor
  · constructor
    · rintro ⟨behind, hbehind⟩
      obtain ⟨alone, halone, -⟩ := (compile_behind_base_error_iff name user).mp hbehind
      exact ⟨alone, halone⟩
    · rintro ⟨alone, halone⟩
      exact ⟨_, (compile_behind_base_error_iff name user).mpr ⟨alone, halone, rfl⟩⟩
  · intro behind alone hbehind halone
    obtain ⟨fault, hfault, rfl⟩ := (compile_behind_base_error_iff name user).mp hbehind
    obtain rfl : fault = alone := Except.error.inj (hfault.symm.trans halone)
    have hlabel := Label.ofFault?_behind (make name user true) fault
    have hmessage := fault.message_shift (make name user true).userStart
    have hadvice := fault.advice?_shift (make name user true).userStart
    exact ⟨hmessage, hlabel, hadvice, Report.write_congr hmessage hlabel hadvice⟩

/-- A source that ends where a name is missing, reported on its second line although the library has
many more. -/
theorem report_behind_base_unnamed :
    (make "main.sel" "x\n(λ" false).compile =
        .error (.missingName .abstraction Form.endOfInput 5) ∧
      (make "main.sel" "x\n(λ" true).compile =
        .error (.missingName .abstraction Form.endOfInput
          (5 + (make "main.sel" "x\n(λ" true).userStart)) ∧
      Report.write false (make "main.sel" "x\n(λ" true)
          (.missingName .abstraction Form.endOfInput
            (5 + (make "main.sel" "x\n(λ" true).userStart)) =
        "error: 'λ' must be followed by a name, found end of input\n" ++
          "  ┌─ main.sel:2:3\n  │\n2 │ (λ\n  │   ^\n\n" := by
  have halone : (make "main.sel" "x\n(λ" false).compile =
      .error (.missingName .abstraction Form.endOfInput 5) := by
    rw [compile_alone, Program.compile_eq]
    rfl
  have hbehind := (compile_behind_base_error_iff _ _).mpr ⟨_, halone, rfl⟩
  refine ⟨halone, hbehind, ?_⟩
  refine (((report_behind_base "main.sel" "x\n(λ").2 _ _ hbehind halone).2.2.2 false).trans ?_
  decide +kernel

end Assembly

end ParenLambda
