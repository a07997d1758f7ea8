import ParenLambda.Proofs.Reading.Flatten

/-!
# Reading accepts exactly the flattened forms

`ParenLambda.Form.flattenAll` writes forms as tokens, and `ParenLambda.Form.read` is its inverse. That
it reads flattened forms back is the subject of `ParenLambda.Proofs.Reading.Flatten`; this file says
that it reads nothing else, and that it drops, repeats and exchanges no token.

The one thing that flattening does not give back is which words were introducers: one that does not
stand right behind an opening parenthesis is **stray**, and is read as a word. So tokens are compared
after their stray introducers have been demoted to atoms (`ParenLambda.Token.demote`). The invariant
is that what has been read, written out as tokens (`ParenLambda.Form.Progress.tokens`), and what is
left to read, demoted, are together the whole input.

Demoting forgives more than reading does. In the place of the name of a binding an introducer is
stray, but reading asks for a name there and does not take it. This is the only difference: tokens in
which no introducer takes the place of a name (`ParenLambda.Token.Undoubled`) are read exactly if they
are, demoted, the tokens of forms.
-/

namespace ParenLambda

/-! ### Stray introducers -/

namespace Token

/-- A token as reading takes it, given the token before it: an introducer that does not stand right
behind an opening parenthesis is stray, and a word like any other. -/
def demoted (before : Option Token) : Token → Token
  | introducer kind => if before = some opening then introducer kind else atom kind.word
  | token => token

/-- The tokens as reading takes them, given the token before the first of them. -/
def demoteBehind : Option Token → List Token → List Token
  | _, [] => []
  | before, token :: rest => token.demoted before :: demoteBehind (some token) rest

/-- **The tokens with stray introducers demoted**: every introducer that is not directly preceded by an
opening parenthesis becomes the atom of its word. -/
def demote (tokens : List Token) : List Token :=
  demoteBehind none tokens

theorem demoted_introducer {before : Option Token} (h : before ≠ some opening)
    (kind : Introducer) : (introducer kind).demoted before = atom kind.word :=
  if_neg h

theorem demoted_of_ne {token : Token} (h : ∀ kind, token ≠ introducer kind)
    (before : Option Token) : token.demoted before = token := by
  cases token with
  | introducer kind => exact absurd rfl (h kind)
  | _ => rfl

/-- **No introducer takes the place of a name**: behind an opening parenthesis and an introducer no
second introducer follows. -/
def Undoubled (tokens : List Token) : Prop :=
  ∀ kind other, ¬[opening, introducer kind, introducer other] <:+: tokens

theorem undoubled_nil : Undoubled [] := by
  intro kind other h
  cases List.infix_nil.mp h

theorem undoubled_cons {token : Token} {rest : List Token} :
    Undoubled (token :: rest) ↔
      (∀ kind other, ¬[opening, introducer kind, introducer other] <+: token :: rest) ∧
        Undoubled rest := by
  simp only [Undoubled, List.infix_cons_iff, not_or]
  exact ⟨fun h => ⟨fun kind other => (h kind other).1, fun kind other => (h kind other).2⟩,
    fun h kind other => ⟨h.1 kind other, h.2 kind other⟩⟩

theorem undoubled_cons_of_ne {token : Token} (h : token ≠ opening) {rest : List Token} :
    Undoubled (token :: rest) ↔ Undoubled rest := by
  rw [undoubled_cons, and_iff_right]
  intro kind other hprefix
  exact h (List.cons_prefix_cons.mp hprefix).1.symm

/-- Behind an opening parenthesis two introducers must not follow, and nothing else matters. -/
theorem undoubled_opening {rest : List Token} :
    Undoubled (opening :: rest) ↔
      (∀ kind other tail, rest ≠ introducer kind :: introducer other :: tail) ∧
        Undoubled rest := by
  rw [undoubled_cons]
  refine and_congr_left fun _ => ⟨?_, ?_⟩
  · rintro h kind other tail rfl
    exact h kind other ⟨tail, rfl⟩
  · rintro h kind other ⟨tail, hrest⟩
    exact h kind other tail (List.cons.inj hrest).2.symm

/-- A name behind an introducer is what is asked for. -/
theorem undoubled_binding {kind : Introducer} {name : String} {rest : List Token} :
    Undoubled (opening :: introducer kind :: atom name :: rest) ↔ Undoubled rest := by
  rw [undoubled_opening, undoubled_cons_of_ne (by simp), undoubled_cons_of_ne (by simp)]
  exact and_iff_right (by simp)

end Token

theorem Form.Unintroduced.token_ne {lexeme : Lexeme} {rest : List Lexeme}
    (h : Form.Unintroduced (lexeme :: rest)) (kind : Introducer) :
    lexeme.token ≠ .introducer kind := by
  intro htoken
  exact h kind lexeme.span rest (by rw [← htoken])

namespace Lexeme

/-- `ParenLambda.Token.demoteBehind` on tokens with their places. -/
def demoteBehind : Option Token → List Lexeme → List Lexeme
  | _, [] => []
  | before, lexeme :: rest =>
    ⟨lexeme.token.demoted before, lexeme.span⟩ :: demoteBehind (some lexeme.token) rest

theorem map_token_demoteBehind (before : Option Token) (lexemes : List Lexeme) :
    (demoteBehind before lexemes).map token = Token.demoteBehind before (lexemes.map token) := by
  induction lexemes generalizing before with
  | nil => rfl
  | cons lexeme rest ih => rw [demoteBehind, List.map_cons, ih, List.map_cons, Token.demoteBehind]

theorem demoteBehind_of_ne {token : Token} (h : ∀ kind, token ≠ .introducer kind)
    (before : Option Token) (span : Span) (rest : List Lexeme) :
    demoteBehind before (⟨token, span⟩ :: rest) =
      ⟨token, span⟩ :: demoteBehind (some token) rest := by
  rw [demoteBehind, Token.demoted_of_ne h]

theorem demoteBehind_introducer {before : Option Token} (h : before ≠ some .opening)
    (kind : Introducer) (span : Span) (rest : List Lexeme) :
    demoteBehind before (⟨.introducer kind, span⟩ :: rest) =
      ⟨.atom kind.word, span⟩ :: demoteBehind (some (.introducer kind)) rest := by
  rw [demoteBehind, Token.demoted_introducer h]

/-- Behind an opening parenthesis an introducer stays what it is. -/
theorem demoteBehind_binding (before : Option Token) (kind : Introducer) (span inner : Span)
    (rest : List Lexeme) :
    demoteBehind before (⟨.opening, span⟩ :: ⟨.introducer kind, inner⟩ :: rest) =
      ⟨.opening, span⟩ :: ⟨.introducer kind, inner⟩ ::
        demoteBehind (some (.introducer kind)) rest := rfl

/-- With no introducer in front, the token before does not matter. -/
theorem demoteBehind_congr {lexemes : List Lexeme} (h : Form.Unintroduced lexemes)
    (before other : Option Token) : demoteBehind before lexemes = demoteBehind other lexemes := by
  cases lexemes with
  | nil => rfl
  | cons lexeme rest => rw [demoteBehind_of_ne h.token_ne, demoteBehind_of_ne h.token_ne]

theorem unintroduced_demoteBehind {lexemes : List Lexeme} (h : Form.Unintroduced lexemes)
    (before : Option Token) : Form.Unintroduced (demoteBehind before lexemes) := by
  cases lexemes with
  | nil => exact h
  | cons lexeme rest =>
    rw [demoteBehind_of_ne h.token_ne]
    exact Form.unintroduced_cons h.token_ne _ _

end Lexeme

namespace Form

/-! ### What has been read, as tokens -/

theorem flattenAll_append (left right : List Form) :
    flattenAll (left ++ right) = flattenAll left ++ flattenAll right := by
  induction left with
  | nil => rfl
  | cons form left ih => rw [List.cons_append, flattenAll, flattenAll, ih, List.append_assoc]

/-- The tokens that an open parenthesis of this kind starts with. -/
def headTokens : Option (Introducer × String) → List Token
  | none => [.opening]
  | some (kind, name) => [.opening, .introducer kind, .atom name]

/-- The tokens that an open parenthesis and the forms in it have been read from. -/
def Pending.tokens (pending : Pending) : List Token :=
  headTokens pending.head ++ flattenAll pending.reversed.reverse

theorem Pending.flatten_close (pending : Pending) (stop : Nat) :
    (pending.close stop).flatten = pending.tokens ++ [.closing] := by
  obtain ⟨head, start, reversed⟩ := pending
  rcases head with _ | ⟨kind, name⟩
  · rfl
  · rfl

namespace Progress

/-- **The tokens that have been read** to come this far: those of the finished forms, and then those
of the open parentheses, outermost first. -/
def tokens (progress : Progress) : List Token :=
  flattenAll progress.reversed.reverse ++ progress.pending.reverse.flatMap Pending.tokens

theorem tokens_enter (progress : Progress) (head : Option (Introducer × String)) (start : Nat) :
    (progress.enter head start).tokens = progress.tokens ++ headTokens head := by
  simp [enter, tokens, Pending.tokens, flattenAll]

theorem tokens_add (progress : Progress) (form : Form) :
    (progress.add form).tokens = progress.tokens ++ form.flatten := by
  obtain ⟨pending, reversed⟩ := progress
  cases pending with
  | nil => simp [add, tokens, flattenAll_append, flattenAll]
  | cons inner outer => simp [add, tokens, Pending.tokens, flattenAll_append, flattenAll]

/-- Closing a parenthesis makes one form of it, with the same tokens and the closing one. -/
theorem tokens_leave {progress next : Progress} {span : Span}
    (h : progress.leave span = .ok next) : next.tokens = progress.tokens ++ [.closing] := by
  obtain ⟨pending, reversed⟩ := progress
  cases pending with
  | nil => cases h
  | cons inner outer =>
    cases h
    rw [tokens_add, Pending.flatten_close]
    simp [tokens]

theorem tokens_finish {progress : Progress} {forms : List Form}
    (h : progress.finish = .ok forms) : progress.tokens = flattenAll forms := by
  obtain ⟨pending, reversed⟩ := progress
  cases pending with
  | nil =>
    cases h
    simp [tokens]
  | cons inner outer => cases h

end Progress

/-! ### Reading that succeeds -/

/-- **Reading that succeeds**, step by step: from how far it has come, the tokens that are left lead to
the given forms. -/
inductive Reads (forms : List Form) : Progress → List Lexeme → Prop
  /-- The tokens have ended, outside all parentheses. -/
  | finish {progress : Progress} (hfinish : progress.finish = .ok forms) : Reads forms progress []
  /-- A binding opens. -/
  | binding {progress : Progress} {kind : Introducer} {name : String} {span inner behind : Span}
      {rest : List Lexeme}
      (hrest : Reads forms (progress.enter (some (kind, name)) span.start) rest) :
      Reads forms progress
        (⟨.opening, span⟩ :: ⟨.introducer kind, inner⟩ :: ⟨.atom name, behind⟩ :: rest)
  /-- A group opens. -/
  | group {progress : Progress} {span : Span} {rest : List Lexeme} (hfront : Unintroduced rest)
      (hrest : Reads forms (progress.enter none span.start) rest) :
      Reads forms progress (⟨.opening, span⟩ :: rest)
  /-- The innermost parenthesis closes. -/
  | closing {progress next : Progress} {span : Span} {rest : List Lexeme}
      (hleave : progress.leave span = .ok next) (hrest : Reads forms next rest) :
      Reads forms progress (⟨.closing, span⟩ :: rest)
  /-- A stray introducer. -/
  | introducer {progress : Progress} {kind : Introducer} {span : Span} {rest : List Lexeme}
      (hrest : Reads forms (progress.add (.atom kind.word)) rest) :
      Reads forms progress (⟨.introducer kind, span⟩ :: rest)
  /-- A word. -/
  | atom {progress : Progress} {name : String} {span : Span} {rest : List Lexeme}
      (hrest : Reads forms (progress.add (.atom name)) rest) :
      Reads forms progress (⟨.atom name, span⟩ :: rest)

variable {progress : Progress} {lexemes : List Lexeme} {forms : List Form}

theorem reads_of_readFrom (h : readFrom progress lexemes = .ok forms) :
    Reads forms progress lexemes := by
  induction progress, lexemes using reading_induction with
  | nil progress =>
    rw [readFrom] at h
    exact .finish h
  | binding progress span kind inner name behind rest ih =>
    rw [readFrom] at h
    exact .binding (ih h)
  | missing progress span kind inner other rest hother =>
    rw [readFrom_missing progress hother] at h
    cases h
  | ended progress span kind inner =>
    rw [readFrom] at h
    cases h
  | group progress span rest hfront ih =>
    rw [readFrom_group progress hfront] at h
    exact .group hfront (ih h)
  | closing progress span rest ih =>
    rw [readFrom] at h
    cases hleave : progress.leave span with
    | error fault =>
      rw [hleave] at h
      cases h
    | ok next =>
      rw [hleave] at h
      exact .closing hleave (ih next hleave h)
  | introducer progress kind span rest ih =>
    rw [readFrom] at h
    exact .introducer (ih h)
  | atom progress name span rest ih =>
    rw [readFrom] at h
    exact .atom (ih h)

/-- **Along reading, what has been read and what is left are the whole.** The tokens of the forms read
in the end are the tokens read so far and, demoted, those that are left. -/
theorem Reads.flattenAll_eq (h : Reads forms progress lexemes) (before : Option Token)
    (hbefore : before ≠ some .opening) :
    flattenAll forms =
      progress.tokens ++ (Lexeme.demoteBehind before lexemes).map Lexeme.token := by
  induction h generalizing before with
  | finish hfinish =>
    rw [← Progress.tokens_finish hfinish]
    exact (List.append_nil _).symm
  | @binding progress kind name span inner behind rest hrest ih =>
    rw [ih (some (.atom name)) (by simp), Progress.tokens_enter, List.append_assoc]
    rfl
  | group hfront hrest ih =>
    -- The parenthesis stands before the rest, but there is no introducer for it to keep.
    rw [ih none (by simp), Progress.tokens_enter, List.append_assoc,
      Lexeme.demoteBehind_congr hfront none (some .opening)]
    rfl
  | closing hleave hrest ih =>
    rw [ih (some .closing) (by simp), Progress.tokens_leave hleave, List.append_assoc]
    rfl
  | @introducer progress kind span rest hrest ih =>
    rw [ih (some (.introducer kind)) (by simp), Progress.tokens_add, List.append_assoc,
      Lexeme.demoteBehind_introducer hbefore]
    rfl
  | @atom progress name span rest hrest ih =>
    rw [ih (some (.atom name)) (by simp), Progress.tokens_add, List.append_assoc]
    rfl

/-- **The forms read from tokens have these tokens**, demoted. -/
theorem flattenAll_of_read (h : read lexemes = .ok forms) :
    flattenAll forms = Token.demote (lexemes.map Lexeme.token) := by
  rw [(reads_of_readFrom h).flattenAll_eq none (by simp), Lexeme.map_token_demoteBehind]
  rfl

/-- Tokens that can be read have a name wherever one is asked for. -/
theorem Reads.undoubled (h : Reads forms progress lexemes) :
    Token.Undoubled (lexemes.map Lexeme.token) := by
  induction h with
  | finish hfinish => exact Token.undoubled_nil
  | binding hrest ih => exact Token.undoubled_binding.mpr ih
  | group hfront hrest ih =>
    refine Token.undoubled_opening.mpr ⟨?_, ih⟩
    intro kind other tail heq
    obtain ⟨⟨_, inner⟩, others, rfl, rfl, -⟩ := List.map_eq_cons_iff.mp heq
    exact hfront kind inner others rfl
  | closing hleave hrest ih => exact (Token.undoubled_cons_of_ne (by simp)).mpr ih
  | introducer hrest ih => exact (Token.undoubled_cons_of_ne (by simp)).mpr ih
  | atom hrest ih => exact (Token.undoubled_cons_of_ne (by simp)).mpr ih

/-! ### Reading sees stray introducers as words -/

/-- **Demoting makes no difference for reading**, if no introducer takes the place of a name. -/
theorem readFrom_demoteBehind (progress : Progress)
    (h : Token.Undoubled (lexemes.map Lexeme.token)) (before : Option Token)
    (hbefore : before ≠ some .opening) :
    readFrom progress (Lexeme.demoteBehind before lexemes) = readFrom progress lexemes := by
  induction progress, lexemes using reading_induction generalizing before with
  | nil progress => rfl
  | binding progress span kind inner name behind rest ih =>
    have hrest := ih (Token.undoubled_binding.mp h) (some (.atom name)) (by simp)
    rw [Lexeme.demoteBehind_binding, Lexeme.demoteBehind_of_ne (by simp), readFrom, readFrom,
      hrest]
  | missing progress span kind inner other rest hother =>
    have hkeep : ∀ second, other.token ≠ .introducer second := by
      intro second hsecond
      refine (Token.undoubled_opening.mp h).1 kind second (rest.map Lexeme.token) ?_
      rw [List.map_cons, List.map_cons, hsecond]
    rw [Lexeme.demoteBehind_binding, Lexeme.demoteBehind_of_ne hkeep,
      readFrom_missing progress hother, readFrom_missing progress hother]
  | ended progress span kind inner => rfl
  | group progress span rest hrest ih =>
    have hrest' := ih (Token.undoubled_opening.mp h).2 none (by simp)
    rw [Lexeme.demoteBehind_congr hrest none (some .opening)] at hrest'
    rw [Lexeme.demoteBehind_of_ne (by simp), readFrom_group progress hrest,
      readFrom_group progress (Lexeme.unintroduced_demoteBehind hrest _), hrest']
  | closing progress span rest ih =>
    rw [Lexeme.demoteBehind_of_ne (by simp), readFrom, readFrom]
    cases hleave : progress.leave span with
    | error fault => rfl
    | ok next =>
      exact ih next hleave ((Token.undoubled_cons_of_ne (by simp)).mp h) (some .closing) (by simp)
  | introducer progress kind span rest ih =>
    have hrest := ih ((Token.undoubled_cons_of_ne (by simp)).mp h) (some (.introducer kind)) (by simp)
    rw [Lexeme.demoteBehind_introducer hbefore, readFrom, readFrom, hrest]
  | atom progress name span rest ih =>
    have hrest := ih ((Token.undoubled_cons_of_ne (by simp)).mp h) (some (.atom name)) (by simp)
    rw [Lexeme.demoteBehind_of_ne (by simp), readFrom, readFrom, hrest]

/-- Tokens that are those of forms once they are demoted can be read, if no introducer takes the
place of a name. -/
theorem exists_read_of_demote (h : Token.demote (lexemes.map Lexeme.token) = flattenAll forms)
    (hnames : Token.Undoubled (lexemes.map Lexeme.token)) : ∃ found, read lexemes = .ok found := by
  rw [Token.demote, ← Lexeme.map_token_demoteBehind] at h
  obtain ⟨found, -, hfound⟩ := read_flattenAll h
  refine ⟨found, ?_⟩
  rw [← hfound, read, read, readFrom_demoteBehind _ hnames none (by simp)]

/-! ### Exactness -/

/-- **Reading is exact.** The tokens of forms, at any places, are read as the forms; the forms that
tokens are read as have these tokens, demoted; and so tokens can be read exactly if they are,
demoted, the tokens of forms, and no introducer takes the place of a name. -/
theorem read_exact :
    (∀ forms lexemes, lexemes.map Lexeme.token = flattenAll forms →
      ∃ found, read lexemes = .ok found ∧ found.map bare = forms.map bare) ∧
    (∀ lexemes forms, read lexemes = .ok forms →
      flattenAll forms = Token.demote (lexemes.map Lexeme.token)) ∧
    (∀ lexemes, (∃ forms, read lexemes = .ok forms) ↔
      (∃ forms, Token.demote (lexemes.map Lexeme.token) = flattenAll forms) ∧
        Token.Undoubled (lexemes.map Lexeme.token)) := by
  refine ⟨?_, fun lexemes forms => flattenAll_of_read, fun lexemes => ⟨?_, ?_⟩⟩
  · intro forms lexemes h
    obtain ⟨found, hbare, hread⟩ := read_flattenAll h
    exact ⟨found, hread, hbare⟩
  · rintro ⟨forms, hread⟩
    exact ⟨⟨forms, (flattenAll_of_read hread).symm⟩, (reads_of_readFrom hread).undoubled⟩
  · rintro ⟨⟨forms, hforms⟩, hnames⟩
    exact exists_read_of_demote hforms hnames

/-- The tokens of `(let let)`. -/
def doubledIntroducer : List Lexeme :=
  [⟨.opening, ⟨0, 1⟩⟩, ⟨.introducer .definition, ⟨1, 4⟩⟩, ⟨.introducer .definition, ⟨5, 8⟩⟩,
    ⟨.closing, ⟨8, 9⟩⟩]

/-- **Demoting alone does not decide what can be read**: a binding of the name `let` has the tokens
of `(let let)`, demoted, but these are not read. -/
theorem not_read_doubledIntroducer :
    ¬((∃ forms, read doubledIntroducer = .ok forms) ↔
      ∃ forms, Token.demote (doubledIntroducer.map Lexeme.token) = flattenAll forms) := by
  intro h
  have hread : read doubledIntroducer =
      .error (.missingName .definition (Token.introducer .definition).describe 5) := rfl
  obtain ⟨forms, hforms⟩ := h.mpr ⟨[.binding .definition "let" [] ⟨0, 9⟩], rfl⟩
  rw [hread] at hforms
  cases hforms

/-- The tokens of `(λ x (f let λ))let`, where one introducer stands at the front of its parenthesis and
three do not. -/
def strayIntroducers : List Lexeme :=
  [⟨.opening, ⟨0, 1⟩⟩, ⟨.introducer .abstraction, ⟨1, 3⟩⟩, ⟨.atom "x", ⟨4, 5⟩⟩,
    ⟨.opening, ⟨6, 7⟩⟩, ⟨.atom "f", ⟨7, 8⟩⟩, ⟨.introducer .definition, ⟨9, 12⟩⟩,
    ⟨.introducer .abstraction, ⟨13, 15⟩⟩, ⟨.closing, ⟨15, 16⟩⟩, ⟨.closing, ⟨16, 17⟩⟩,
    ⟨.introducer .definition, ⟨17, 20⟩⟩]

/-- The forms of `(λ x (f let λ))let`, at other places. -/
def strayForms : List Form :=
  [.binding .abstraction "x" [.group [.atom "f", .atom "let", .atom "λ"] ⟨7, 3⟩] ⟨0, 0⟩, .atom "let"]

theorem read_exact_strayIntroducers :
    (Lexeme.demoteBehind none strayIntroducers).map Lexeme.token = flattenAll strayForms ∧
    (∃ found, read (Lexeme.demoteBehind none strayIntroducers) = .ok found ∧
      found.map bare = strayForms.map bare) ∧
    (∃ forms, read strayIntroducers = .ok forms ∧
      flattenAll forms = Token.demote (strayIntroducers.map Lexeme.token)) ∧
    Token.Undoubled (strayIntroducers.map Lexeme.token) := by
  have hdemote : Token.demote (strayIntroducers.map Lexeme.token) = flattenAll strayForms := rfl
  have hnames : Token.Undoubled (strayIntroducers.map Lexeme.token) := by
    intro kind other
    cases kind <;> cases other <;> decide
  obtain ⟨forms, hread⟩ := (read_exact.2.2 strayIntroducers).mpr ⟨⟨strayForms, hdemote⟩, hnames⟩
  exact ⟨rfl, read_exact.1 strayForms _ rfl, ⟨forms, hread, read_exact.2.1 _ forms hread⟩, hnames⟩

end Form

end ParenLambda
