import ParenLambda.Proofs.Arity
import ParenLambda.Proofs.Printing
import ParenLambda.Proofs.Reading.Places
import ParenLambda.Proofs.Scanning.Exact

/-!
# The names of compiled programs are identifiers

A symbol of a source may hold nearly any character, and the names of a program none but those of
identifiers. Every canonical name of a symbol is an identifier, and so are the two words that an
introducer is read as where none is expected. The names go from the tokens into the forms and from the
forms into the terms as they are, so all names of a compiled program are identifiers
(`ParenLambda.Program.isIdentifier_of_compile`).
-/

namespace ParenLambda

namespace Name

/-- **Whether a name is an identifier**: it starts with an underscore or a character that identifiers
may start with, and it goes on with characters that they may hold. -/
def isIdentifier (name : String) : Bool :=
  name.toList.head?.any canLead && name.toList.all Text.isIdentifierPart

variable {name : String}

theorem isIdentifier_iff :
    isIdentifier name ↔
      (∃ first rest, name.toList = first :: rest ∧ canLead first) ∧
        ∀ c ∈ name.toList, Text.isIdentifierPart c := by
  rw [isIdentifier, Bool.and_eq_true, List.all_eq_true]
  refine and_congr ?_ Iff.rfl
  cases name.toList with
  | nil => simp
  | cons first rest => simp

theorem isIdentifierPart_safe (c : Char) : Text.isIdentifierPart (safe c) := by
  rw [safe]
  split
  · assumption
  · exact Text.isIdentifierPart_underscore

theorem isIdentifier_operators : ∀ entry ∈ operators, isIdentifier entry.2 := by
  decide +kernel

/-- Sanitizing a symbol that is not empty gives an identifier. -/
theorem isIdentifier_sanitize (first : Char) (rest : List Char) :
    isIdentifier (String.ofList (sanitize (first :: rest))) := by
  have hparts : ∀ c ∈ safe first :: rest.map safe, Text.isIdentifierPart c := by
    intro c hc
    rw [← List.map_cons] at hc
    obtain ⟨symbol, -, rfl⟩ := List.mem_map.mp hc
    exact isIdentifierPart_safe symbol
  rw [isIdentifier_iff, String.toList_ofList, sanitize, List.map_cons]
  by_cases hlead : canLead (safe first)
  · simp only [hlead, if_true]
    exact ⟨⟨_, _, rfl, hlead⟩, hparts⟩
  · simp only [hlead, Bool.false_eq_true, if_false]
    refine ⟨⟨'B', _, rfl, by decide⟩, fun c hc => ?_⟩
    rcases List.mem_append.mp hc with hc | hc
    · have hmark : numeralMark.toList.all Text.isIdentifierPart := by
        decide
      exact List.all_eq_true.mp hmark c hc
    · exact hparts c hc

/-- **The canonical name of a symbol is an identifier.** -/
theorem isIdentifier_canonical {symbol : String} (h : symbol.toList ≠ []) :
    isIdentifier (canonical symbol) := by
  rw [canonical]
  cases hlookup : operators.lookup symbol with
  | some found =>
    obtain ⟨before, after, hoperators, -⟩ := List.lookup_eq_some_iff.mp hlookup
    exact isIdentifier_operators (symbol, found) (by simp [hoperators])
  | none =>
    cases hlist : symbol.toList with
    | nil => exact absurd hlist h
    | cons first rest => exact isIdentifier_sanitize first rest

end Name

/-! ### Tokens -/

/-- The atoms of a source are identifiers. -/
theorem Token.isIdentifier_of_mem_scan {source name : String} {span : Span}
    (h : (⟨.atom name, span⟩ : Lexeme) ∈ scan source) : Name.isIdentifier name := by
  obtain ⟨before, text, after, -, -, hfragment, -, hdenotes⟩ := mem_scan_iff.mp h
  generalize htoken : Token.atom name = token at hdenotes
  cases hdenotes with
  | word hname h =>
    cases htoken
    rcases hname with rfl | rfl <;> decide
  | atom h =>
    cases htoken
    refine Name.isIdentifier_canonical ?_
    obtain ⟨c, rest, rfl, -⟩ := hfragment.eq_cons
    rw [String.toList_ofList]
    exact List.cons_ne_nil c rest
  | _ => cases htoken

/-! ### Forms and terms -/

namespace Form

mutual

/-- The names of a form: those it binds and its atoms. -/
def names : Form → List String
  | atom name => [name]
  | group members _ => namesAll members
  | binding _ name members _ => name :: namesAll members

/-- The names of a list of forms. -/
def namesAll : List Form → List String
  | [] => []
  | form :: rest => form.names ++ namesAll rest

end

theorem names_parenthesised {head : Option (Introducer × String)} {members : List Form} {span : Span} :
    (parenthesised head members span).names = (head.map Prod.snd).toList ++ namesAll members := by
  cases head with
  | none => exact congrArg namesAll (List.reverse_reverse members)
  | some head => exact congrArg (head.2 :: namesAll ·) (List.reverse_reverse members)

/-- **Every name of a form is read from a word.** -/
theorem ReadOff.names {forms : List Form} {lexemes : List Lexeme} (h : ReadOff forms lexemes)
    {name : String} (hname : name ∈ namesAll forms) :
    (∃ span, (⟨.atom name, span⟩ : Lexeme) ∈ lexemes) ∨ ∃ kind : Introducer, name = kind.word := by
  induction h with
  | nil => cases hname
  | @word token found span forms rest hword hrest ih =>
    rcases List.mem_append.mp hname with hname | hname
    · obtain rfl := List.mem_singleton.mp hname
      cases hword with
      | atom name => exact Or.inl ⟨span, List.mem_cons_self⟩
      | introducer kind => exact Or.inr ⟨kind, rfl⟩
    · exact (ih hname).imp_left fun ⟨span, hspan⟩ => ⟨span, List.mem_cons_of_mem _ hspan⟩
  | @parenthesis head members forms opening closing heading inside rest hhead _ _ ihInside ihRest =>
    rw [namesAll, names_parenthesised, List.append_assoc] at hname
    rcases List.mem_append.mp hname with hname | hname
    · cases hhead with
      | group hrest => cases hname
      | @binding kind bound inner behind =>
        obtain rfl := List.mem_singleton.mp hname
        exact Or.inl ⟨behind, by simp⟩
    · rcases List.mem_append.mp hname with hname | hname
      · exact (ihInside hname).imp_left fun ⟨span, hspan⟩ => ⟨span, by simp [hspan]⟩
      · exact (ihRest hname).imp_left fun ⟨span, hspan⟩ => ⟨span, by simp [hspan]⟩

theorem names_of_forall₂ {forms : List Form} {terms : List Term}
    (h : List.Forall₂ Translates forms terms)
    (ih : ∀ form ∈ forms, ∀ term, Translates form term → term.names = form.names) :
    Term.namesAll terms = namesAll forms := by
  induction h with
  | nil => rfl
  | cons hhead _ ihTail =>
    rw [Term.namesAll, namesAll, ih _ List.mem_cons_self _ hhead,
      ihTail fun form hform => ih form (List.mem_cons_of_mem _ hform)]

/-- **The term of a form has the names of the form.** -/
theorem Translates.names {form : Form} {term : Term} (h : Translates form term) :
    term.names = form.names := by
  induction form using Form.induction generalizing term with
  | atom name =>
    cases h
    rfl
  | group members span ih =>
    cases h with
    | application _ hoperator hoperand =>
      rw [Term.names, ih _ (by simp) hoperator, ih _ (by simp) hoperand, Form.names, namesAll,
        namesAll, namesAll, List.append_nil]
    | sequence _ hmembers =>
      exact names_of_forall₂ hmembers fun form hform term hterm => ih form hform hterm
  | binding kind name members span ih =>
    cases h with
    | definition hvalue =>
      rw [Term.names, ih _ List.mem_cons_self hvalue, Form.names, namesAll, namesAll,
        List.append_nil]
    | abstraction hbody =>
      rw [Term.names, ih _ List.mem_cons_self hbody, Form.names, namesAll, namesAll,
        List.append_nil]

end Form

/-- **Every name of a compiled program is an identifier.** -/
theorem Program.isIdentifier_of_compile {source : String} {program : Program}
    (h : compile source = .ok program) : ∀ name ∈ program.names, Name.isIdentifier name := by
  obtain ⟨forms, hforms, hterms⟩ := parse_of_compile h
  intro name hname
  have htranslates : List.Forall₂ Form.Translates forms program.body := by
    have hagrees := Term.agrees_ofForms forms
    rw [hterms] at hagrees
    exact hagrees.2
  rw [names, Form.names_of_forall₂ htranslates fun _ _ _ hterm => hterm.names] at hname
  rcases (Form.readOff_of_read hforms).names hname with ⟨span, hspan⟩ | ⟨kind, rfl⟩
  · exact Token.isIdentifier_of_mem_scan hspan
  · cases kind <;> decide

end ParenLambda
