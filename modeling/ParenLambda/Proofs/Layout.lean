import ParenLambda.Backend.Catalogue
import ParenLambda.Proofs.Concatenation
import ParenLambda.Proofs.Scanning.Gaps

/-!
# Layout never matters

A blank or a comment more changes where the tokens of a source stand and nothing else: the program is
the same, or the same thing is wrong with the source. Where the tokens are the same, so is the outcome
but for the place of a fault (`ParenLambda.Program.compile_alike`), because forms can be read and terms
be made of the lexemes with all their offsets set to zero. And layout at a place for it leaves the
tokens as they are.
-/

namespace ParenLambda

/-! ### The same outcome but for places -/

/-- **A fault without its place**: its offsets are set to zero. -/
def Fault.bare : Fault → Fault :=
  Fault.displace fun _ => 0

/-- **The same outcome but for places**: the same result, or two faults that say the same thing. -/
inductive Alike {α : Type} : Except Fault α → Except Fault α → Prop
  /-- The same result. -/
  | ok (result : α) : Alike (.ok result) (.ok result)
  /-- Two faults that differ in their place at most; their messages are the same. -/
  | error {left right : Fault} : left.bare = right.bare → left.message = right.message →
      Alike (.error left) (.error right)

theorem Alike.of_mapError_bare {α : Type} {left right : Except Fault α}
    (h : left.mapError Fault.bare = right.mapError Fault.bare) : Alike left right := by
  cases left with
  | ok result =>
    cases right with
    | ok other =>
      cases h
      exact .ok result
    | error fault => cases h
  | error fault =>
    cases right with
    | ok other => cases h
    | error other =>
      have hbare : fault.bare = other.bare := Except.error.inj h
      refine .error hbare ?_
      rw [← Fault.message_displace (fun _ => 0) fault, ← Fault.message_displace (fun _ => 0) other]
      exact congrArg Fault.message hbare

/-! ### Tokens tell the outcome -/

/-- A token at no place. -/
def Lexeme.ofToken (token : Token) : Lexeme :=
  ⟨token, 0, 0⟩

namespace Program

/-- **Compiling sees the tokens only**, if the place of a fault is forgotten. -/
theorem compile_mapError_bare (source : String) :
    (compile source).mapError Fault.bare =
      match Form.read (((Token.scan source).map Lexeme.token).map Lexeme.ofToken) with
      | .error fault => .error fault
      | .ok forms => (Term.ofForms forms).map Program.mk := by
  have hlexemes : ((Token.scan source).map Lexeme.token).map Lexeme.ofToken =
      (Token.scan source).map (Lexeme.displace fun _ => 0) := by
    rw [List.map_map]
    rfl
  have hread : Form.read ((Token.scan source).map (Lexeme.displace fun _ => 0)) =
      ((Form.read (Token.scan source)).map (List.map (Form.displace fun _ => 0))).mapError
        Fault.bare :=
    Form.readFrom_displace _ .empty (Token.scan source)
  rw [compile_eq, Form.parse, hlexemes, hread]
  cases Form.read (Token.scan source) with
  | error fault => rfl
  | ok forms =>
    change ((Term.ofForms forms).map Program.mk).mapError Fault.bare =
      (Term.ofForms (forms.map (Form.displace fun _ => 0))).map Program.mk
    rw [Term.ofForms_displace]
    cases Term.ofForms forms <;> rfl

variable {left right : String}

/-- **Sources with the same tokens** compile to the same program or are faulty in the same way. -/
theorem compile_alike
    (h : (Token.scan left).map Lexeme.token = (Token.scan right).map Lexeme.token) :
    Alike (compile left) (compile right) := by
  apply Alike.of_mapError_bare
  rw [compile_mapError_bare, compile_mapError_bare, h]

end Program

/-- Sources that compile alike are rendered alike, by every backend. -/
theorem Catalogue.render_alike (catalogue : Catalogue) (name : String) {left right : String}
    (prelude : Option String) (h : Alike (Program.compile left) (Program.compile right)) :
    Alike (catalogue.render name left prelude) (catalogue.render name right prelude) := by
  rw [Catalogue.render, Catalogue.render]
  cases catalogue.resolve name with
  | error fault => exact .error rfl rfl
  | ok backend =>
    generalize Program.compile left = first at h ⊢
    generalize Program.compile right = second at h ⊢
    cases h with
    | ok program => exact .ok _
    | error hbare hmessage => exact .error hbare hmessage

/-! ### Layout -/

/-- **Layout never matters.** Layout at a place for it changes neither the tokens nor the outcome of
compiling the source or of rendering it with any backend and any prelude, apart from the place of a
fault. -/
theorem Program.layout_immaterial (before gap rest : String)
    (hcut : Fragment.Cut before.toList rest.toList) (hgap : Fragment.Gap gap.toList) :
    (Token.scan (before ++ gap ++ rest)).map Lexeme.token =
        (Token.scan (before ++ rest)).map Lexeme.token ∧
      Alike (compile (before ++ gap ++ rest)) (compile (before ++ rest)) ∧
      ∀ (catalogue : Catalogue) (name : String) (prelude : Option String),
        Alike (catalogue.render name (before ++ gap ++ rest) prelude)
          (catalogue.render name (before ++ rest) prelude) := by
  have htokens : (Token.scan (before ++ gap ++ rest)).map Lexeme.token =
      (Token.scan (before ++ rest)).map Lexeme.token := by
    change Token.ofText (before ++ gap ++ rest).toList = Token.ofText (before ++ rest).toList
    rw [String.toList_append, String.toList_append, String.toList_append, List.append_assoc]
    exact hcut.ofText_insert hgap
  have hcompile := compile_alike htokens
  exact ⟨htokens, hcompile, fun catalogue name prelude =>
    catalogue.render_alike name prelude hcompile⟩

/-- Layout behind a run and in front of a comment: the fault behind it moves to the right. -/
theorem Program.layout_immaterial_closing :
    Fragment.Cut "(let".toList ";\nI (λ x x)))".toList ∧ Fragment.Gap " ; (name)\n\t".toList ∧
      compile "(let ; (name)\n\t;\nI (λ x x)))" = .error (.unexpectedClosing 28) ∧
      compile "(let;\nI (λ x x)))" = .error (.unexpectedClosing 17) ∧
      Alike (compile "(let ; (name)\n\t;\nI (λ x x)))") (compile "(let;\nI (λ x x)))") := by
  have hcut : Fragment.Cut "(let".toList ";\nI (λ x x)))".toList := by
    refine ⟨Fragment.not_commented_of_forall_ne (by simp), Or.inr ?_⟩
    rintro _ ⟨⟩
    exact Or.inr (Or.inl rfl)
  have hcomment : Fragment.Gap (';' :: (" (name)".toList ++ '\n' :: ['\t'])) :=
    .comment (by decide) (.blank (by decide) .nil)
  have hgap : Fragment.Gap " ; (name)\n\t".toList := .blank (by decide) hcomment
  exact ⟨hcut, hgap, by rfl, by rfl,
    (layout_immaterial "(let" " ; (name)\n\t" ";\nI (λ x x)))" hcut hgap).2.1⟩

end ParenLambda
