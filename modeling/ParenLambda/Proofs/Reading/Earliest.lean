import ParenLambda.Proofs.Nesting
import ParenLambda.Proofs.Reading.Places
import ParenLambda.Token.Scan

/-!
# Faults of reading are found as early as they can be

Reading goes through the tokens once, so it cannot take back what it has passed. That it need not is
said here: as long as it has found no fault, the tokens so far are **viable**, that is, some tokens behind
them would make a source that can be read. The parentheses that are open can always be closed, and a
name can always be put behind an introducer.

So a fault is one of two things. Either a token is rejected, and then the tokens before it are viable
while those up to it are not, and no tokens behind them can change the fault. Or the tokens have ended
too early, and then they are viable themselves, and the fault says what they lack: a closing parenthesis
for the last one that is open, or a name behind the introducer at the end.

Which parenthesis is the last open one is said without the reader, by counting: one is open if nowhere
behind it more parentheses have been closed than opened.
-/

namespace ParenLambda

/-- One for an opening parenthesis, and minus one for a closing one. -/
def Lexeme.weight (lexeme : Lexeme) : Int :=
  match lexeme.token with
  | .opening => 1
  | .closing => -1
  | _ => 0

namespace Form

/-- **Tokens that a source may start with**: with some tokens behind them they can be read. -/
def Viable (lexemes : List Lexeme) : Prop :=
  ∃ more forms, read (lexemes ++ more) = .ok forms

/-- **A token is rejected** where a fault is found: what stands before the token is viable, what stands
up to it is not, and whatever tokens follow, the fault is the same. -/
structure RejectedAt (lexemes : List Lexeme) (fault : Fault) (offset : Nat) : Prop where
  /-- The token starts at the place of the fault. -/
  token : ∃ before lexeme after, lexemes = before ++ lexeme :: after ∧
    lexeme.span.start = offset ∧ Viable before ∧ ¬Viable (before ++ [lexeme])
  /-- More tokens do not change the fault. -/
  again : ∀ more, read (lexemes ++ more) = .error fault

/-- **The last open parenthesis** starts at a place: behind it not more parentheses are closed than
opened, up to any point, and this holds of no parenthesis that opens later. -/
def LastOpenAt (lexemes : List Lexeme) (offset : Nat) : Prop :=
  ∃ before span after, lexemes = before ++ ⟨.opening, span⟩ :: after ∧ span.start = offset ∧
    Nesting.Keeps Lexeme.weight after ∧
    ∀ between inner tail, after = between ++ ⟨.opening, inner⟩ :: tail →
      ¬Nesting.Keeps Lexeme.weight tail

variable {progress next : Progress} {passed rest lexemes : List Lexeme} {forms : List Form}

/-! ### Going on from where reading stops -/

@[simp] theorem Progress.length_pending_add (progress : Progress) (form : Form) :
    (progress.add form).pending.length = progress.pending.length := by
  obtain ⟨pending, reversed⟩ := progress
  cases pending <;> rfl

/-- **However far reading has come, it can be brought to an end** by closing what is open. -/
theorem exists_closings (progress : Progress) :
    ∃ closings forms, Unintroduced closings ∧ readFrom progress closings = .ok forms := by
  induction hlength : progress.pending.length generalizing progress with
  | zero =>
    obtain ⟨pending, reversed⟩ := progress
    obtain rfl : pending = [] := List.length_eq_zero_iff.mp hlength
    refine ⟨[], reversed.reverse, unintroduced_nil, ?_⟩
    rw [readFrom]
    rfl
  | succ length ih =>
    obtain ⟨pending, reversed⟩ := progress
    cases pending with
    | nil => cases hlength
    | cons inner outer =>
      have houter : (Progress.add (inner.close 0) ⟨outer, reversed⟩).pending.length = length := by
        rw [Progress.length_pending_add]
        exact Nat.succ.inj hlength
      obtain ⟨closings, forms, -, hread⟩ := ih _ houter
      refine ⟨⟨.closing, .point 0⟩ :: closings, forms,
        unintroduced_cons (by rintro kind ⟨⟩) _ _, ?_⟩
      rw [readFrom]
      exact hread

/-- What has been read without a fault is viable. -/
theorem Passes.viable (h : Passes .empty passed next) : Viable passed := by
  obtain ⟨closings, forms, hclosings, hread⟩ := exists_closings next
  exact ⟨closings, forms, (h.readFrom_append hclosings).trans hread⟩

/-- A parenthesis and an introducer may follow what has been read, if a name may follow them. -/
theorem Passes.viable_introducer (h : Passes .empty passed next) (kind : Introducer)
    (span inner : Span) : Viable (passed ++ [⟨.opening, span⟩, ⟨.introducer kind, inner⟩]) := by
  obtain ⟨closings, forms, -, hread⟩ :=
    exists_closings (next.enter (some (kind, "x")) span.start)
  refine ⟨⟨.atom "x", .point 0⟩ :: closings, forms, ?_⟩
  rw [List.append_assoc]
  refine (h.readFrom_append (unintroduced_cons (by rintro kind ⟨⟩) span _)).trans ?_
  change readFrom next (⟨.opening, span⟩ :: ⟨.introducer kind, inner⟩ :: ⟨.atom "x", .point 0⟩ ::
    closings) = .ok forms
  rw [readFrom]
  exact hread

/-- A token is rejected if there is the same fault whatever follows it. -/
theorem rejectedAt_of_forall {before : List Lexeme} {lexeme : Lexeme} {fault : Fault}
    (hviable : Viable before) (h : ∀ more, read (before ++ lexeme :: more) = .error fault)
    (after : List Lexeme) :
    RejectedAt (before ++ lexeme :: after) fault lexeme.span.start := by
  refine ⟨⟨before, lexeme, after, rfl, rfl, hviable, ?_⟩, ?_⟩
  · rintro ⟨more, forms, hread⟩
    rw [List.append_assoc, List.singleton_append, h more] at hread
    cases hread
  · intro more
    rw [List.append_assoc, List.cons_append, h]

/-- A closing parenthesis is rejected where none is open. -/
theorem Passes.rejectedAt_closing {reversed : List Form} (h : Passes .empty passed ⟨[], reversed⟩)
    (span : Span) (rest : List Lexeme) :
    RejectedAt (passed ++ ⟨.closing, span⟩ :: rest) (.unexpectedClosing span.start) span.start := by
  refine rejectedAt_of_forall h.viable (fun more => ?_) rest
  refine (h.readFrom_append (unintroduced_cons (by rintro kind ⟨⟩) span more)).trans ?_
  rw [readFrom]
  rfl

/-- A token that is no name is rejected behind an introducer. -/
theorem Passes.rejectedAt_name {other : Lexeme} (h : Passes .empty passed next)
    (hother : ∀ name, other.token ≠ .atom name) (kind : Introducer) (span inner : Span)
    (rest : List Lexeme) :
    RejectedAt (passed ++ ⟨.opening, span⟩ :: ⟨.introducer kind, inner⟩ :: other :: rest)
      (.missingName kind other.token.describe other.span.start) other.span.start := by
  have hread : ∀ more, read ((passed ++ [⟨.opening, span⟩, ⟨.introducer kind, inner⟩]) ++
      other :: more) = .error (.missingName kind other.token.describe other.span.start) := by
    intro more
    rw [List.append_assoc]
    refine (h.readFrom_append (unintroduced_cons (by rintro kind ⟨⟩) span _)).trans ?_
    exact readFrom_missing next hother kind span inner more
  have hrejected := rejectedAt_of_forall (h.viable_introducer kind span inner) hread rest
  rwa [List.append_assoc] at hrejected

/-! ### What is open -/

theorem Heading.balanced {head : Option (Introducer × String)} {heading : List Lexeme}
    (h : Heading rest head heading) : Nesting.Balanced Lexeme.weight heading := by
  refine Nesting.balanced_of_forall ?_
  cases h with
  | group hrest => exact List.forall_mem_nil _
  | binding => simp [Lexeme.weight]

/-- The lexemes of finished forms are balanced. -/
theorem ReadOff.balanced (h : ReadOff forms lexemes) :
    Nesting.Balanced Lexeme.weight lexemes := by
  induction h with
  | nil => exact Nesting.balanced_of_forall (List.forall_mem_nil _)
  | @word token name span forms rest hword _ ih =>
    have hfirst : Nesting.Balanced Lexeme.weight [⟨token, span⟩] := by
      refine Nesting.balanced_of_forall (List.forall_mem_singleton.mpr ?_)
      cases hword <;> rfl
    exact hfirst.append ih
  | @parenthesis head members forms opening closing heading inside rest hhead _ _ ihInside ihRest =>
    have hform : Nesting.Balanced Lexeme.weight
        (⟨.opening, opening⟩ :: ((heading ++ inside) ++ [⟨.closing, closing⟩])) :=
      (hhead.balanced.append ihInside).enclose rfl rfl
    simpa using hform.append ihRest

/-- The innermost parenthesis that reading has gathered is the last open one. -/
theorem Gathered.lastOpenAt {inner : Pending} {outer : List Pending} {reversed : List Form}
    (h : Gathered ⟨inner :: outer, reversed⟩ lexemes rest) : LastOpenAt lexemes inner.start := by
  cases h with
  | @inside _ _ members head span front heading inside _ houter hhead hmembers =>
    have hafter := hhead.balanced.append hmembers.balanced
    refine ⟨front, span, heading ++ inside, rfl, rfl, hafter.keeps, ?_⟩
    intro between inner tail htail
    rw [htail] at hafter
    exact hafter.not_keeps rfl

/-! ### The faults -/

/-- A token in the place of a name is not taken for the end of the input. -/
theorem describe_ne_endOfInput {token : Token} (h : ∀ name, token ≠ .atom name) :
    token.describe ≠ endOfInput := by
  cases token with
  | opening => decide
  | closing => decide
  | introducer kind => cases kind <;> decide
  | atom name => exact absurd rfl (h name)

/-- **A fault of reading is found at the earliest token.** A fault is an unexpected closing
parenthesis, a missing name or an unclosed parenthesis. If a token is at fault, it is rejected: the
tokens before it are viable, those up to it are not, and more tokens do not change the fault. If the
tokens have ended too early they are viable, and the place of the fault is the start of the last open
parenthesis, or the end of the introducer that the tokens end with. -/
theorem read_earliest (lexemes : List Lexeme) (fault : Fault) (h : read lexemes = .error fault) :
    (∃ offset, fault = .unexpectedClosing offset ∨ fault = .unclosedOpening offset ∨
      ∃ kind found, fault = .missingName kind found offset) ∧
    (∀ offset, fault = .unexpectedClosing offset → RejectedAt lexemes fault offset) ∧
    (∀ kind found offset, fault = .missingName kind found offset → found ≠ endOfInput →
      RejectedAt lexemes fault offset) ∧
    (∀ offset, fault = .unclosedOpening offset → Viable lexemes ∧ LastOpenAt lexemes offset) ∧
    (∀ kind offset, fault = .missingName kind endOfInput offset → Viable lexemes ∧
      ∃ before span, lexemes = before ++ [⟨.introducer kind, span⟩] ∧ span.stop = offset) := by
  obtain ⟨passed, next, rest, rfl, hpassed, hstops⟩ := exists_passes .empty lexemes
  rw [read] at h
  rw [h] at hstops
  generalize hresult : Except.error fault = result at hstops
  cases hstops with
  | finish =>
    have hgathered := hpassed.gathered_empty unintroduced_nil
    obtain ⟨pending, reversed⟩ := next
    cases pending with
    | nil => cases hresult
    | cons inner outer =>
      cases hresult
      refine ⟨⟨inner.start, Or.inr (Or.inl rfl)⟩, by rintro _ ⟨⟩, by rintro _ _ _ ⟨⟩, ?_,
        by rintro _ _ ⟨⟩⟩
      rintro _ ⟨⟩
      rw [List.append_nil]
      exact ⟨hpassed.viable, hgathered.lastOpenAt⟩
  | @unexpected reversed span rest =>
    cases hresult
    refine ⟨⟨span.start, Or.inl rfl⟩, ?_, by rintro _ _ _ ⟨⟩, by rintro _ ⟨⟩, by rintro _ _ ⟨⟩⟩
    rintro _ ⟨⟩
    exact hpassed.rejectedAt_closing span rest
  | @missing _ kind span inner other rest hother =>
    cases hresult
    refine ⟨⟨other.span.start, Or.inr (Or.inr ⟨kind, _, rfl⟩)⟩, by rintro _ ⟨⟩, ?_, by rintro _ ⟨⟩,
      ?_⟩
    · rintro _ _ _ ⟨⟩ -
      exact hpassed.rejectedAt_name hother kind span inner rest
    · intro other offset heq
      exact absurd (Fault.missingName.inj heq).2.1 (describe_ne_endOfInput hother)
  | @ended _ kind span inner =>
    cases hresult
    refine ⟨⟨inner.stop, Or.inr (Or.inr ⟨kind, endOfInput, rfl⟩)⟩, by rintro _ ⟨⟩, ?_,
      by rintro _ ⟨⟩, ?_⟩
    · rintro _ _ _ ⟨⟩ hne
      exact absurd rfl hne
    · rintro _ _ ⟨⟩
      refine ⟨hpassed.viable_introducer kind span inner, passed ++ [⟨.opening, span⟩], inner, ?_, rfl⟩
      simp

/-- A closing parenthesis too many, a parenthesis in the place of a name, the last of two parentheses
left open, and an introducer at the end. -/
theorem read_earliest_faults :
    (read (Token.scan "(f x))") = .error (.unexpectedClosing 5) ∧
      RejectedAt (Token.scan "(f x))") (.unexpectedClosing 5) 5) ∧
    (read (Token.scan "(λ (x) x)") = .error (.missingName .abstraction "'('" 4) ∧
      RejectedAt (Token.scan "(λ (x) x)") (.missingName .abstraction "'('" 4) 4) ∧
    (read (Token.scan "(let x (f y)\n(g") = .error (.unclosedOpening 13) ∧
      Viable (Token.scan "(let x (f y)\n(g") ∧ LastOpenAt (Token.scan "(let x (f y)\n(g") 13) ∧
    (read (Token.scan "(lambda") = .error (.missingName .abstraction endOfInput 7) ∧
      Viable (Token.scan "(lambda")) := by
  have hclosing : read (Token.scan "(f x))") = .error (.unexpectedClosing 5) := rfl
  have hname : read (Token.scan "(λ (x) x)") = .error (.missingName .abstraction "'('" 4) := rfl
  have hopen : read (Token.scan "(let x (f y)\n(g") = .error (.unclosedOpening 13) := rfl
  have hended : read (Token.scan "(lambda") = .error (.missingName .abstraction endOfInput 7) := rfl
  exact ⟨⟨hclosing, (read_earliest _ _ hclosing).2.1 5 rfl⟩,
    ⟨hname, (read_earliest _ _ hname).2.2.1 _ _ 4 rfl (by decide)⟩,
    ⟨hopen, (read_earliest _ _ hopen).2.2.2.1 13 rfl⟩,
    ⟨hended, ((read_earliest _ _ hended).2.2.2.2 _ 7 rfl).1⟩⟩

end Form

end ParenLambda
