import ParenLambda.Form.Read

/-!
# Reading one form's worth of tokens at a time

Reading takes one token at a time, except behind an opening parenthesis, where an introducer and the
name after it are taken together with the parenthesis. This file gives the steps of
`ParenLambda.Form.readFrom` as equations, and the induction over them.

Two texts that are read one after the other do not meet, if the first leaves no parenthesis open:
`ParenLambda.Form.read_append` says that the forms of the second then follow those of the first, and
that its faults are the faults of the whole. The look-ahead behind an opening parenthesis never
reaches from one text into the other, since the first would have been at fault by itself.
-/

namespace ParenLambda

namespace Form

/-- No introducer stands in front. -/
def Unintroduced (lexemes : List Lexeme) : Prop :=
  ∀ kind span rest, lexemes ≠ ⟨.introducer kind, span⟩ :: rest

theorem unintroduced_cons {token : Token} (h : ∀ kind, token ≠ .introducer kind) (span : Span)
    (rest : List Lexeme) : Unintroduced (⟨token, span⟩ :: rest) := by
  rintro kind _ _ ⟨⟩
  exact h kind rfl

/-- What stands in front of a non-empty list stands in front of it with anything behind. -/
theorem Unintroduced.append {lexemes : List Lexeme} (h : Unintroduced lexemes)
    (hne : lexemes ≠ []) (right : List Lexeme) : Unintroduced (lexemes ++ right) := by
  cases lexemes with
  | nil => exact absurd rfl hne
  | cons first rest =>
    rintro kind span _ ⟨⟩
    exact h kind span rest rfl

/-! ### The steps -/

variable (progress : Progress)

/-- An opening parenthesis without an introducer opens a group. -/
theorem readFrom_group {rest : List Lexeme} (h : Unintroduced rest) (span : Span) :
    readFrom progress (⟨.opening, span⟩ :: rest) =
      readFrom (progress.enter none span.start) rest := by
  rw [readFrom]
  · exact fun kind inner name _ tail => h kind inner _
  · exact fun kind inner other tail => h kind inner _
  · exact fun kind inner => h kind inner []

/-- An introducer behind an opening parenthesis that no name follows is a fault. -/
theorem readFrom_missing {other : Lexeme} (h : ∀ name, other.token ≠ .atom name) (kind : Introducer)
    (span inner : Span) (rest : List Lexeme) :
    readFrom progress (⟨.opening, span⟩ :: ⟨.introducer kind, inner⟩ :: other :: rest) =
      .error (.missingName kind other.token.describe other.span.start) := by
  rw [readFrom]
  rintro name _ rfl
  exact h name rfl

/-- **Induction along reading**, one case for each step. -/
theorem reading_induction {motive : Progress → List Lexeme → Prop}
    (nil : ∀ progress, motive progress [])
    (binding : ∀ progress span kind inner name behind rest,
      motive (progress.enter (some (kind, name)) span.start) rest →
        motive progress
          (⟨.opening, span⟩ :: ⟨.introducer kind, inner⟩ :: ⟨.atom name, behind⟩ :: rest))
    (missing : ∀ progress span kind inner other rest, (∀ name, other.token ≠ .atom name) →
      motive progress (⟨.opening, span⟩ :: ⟨.introducer kind, inner⟩ :: other :: rest))
    (ended : ∀ progress span kind inner,
      motive progress [⟨.opening, span⟩, ⟨.introducer kind, inner⟩])
    (group : ∀ progress span rest, Unintroduced rest →
      motive (progress.enter none span.start) rest → motive progress (⟨.opening, span⟩ :: rest))
    (closing : ∀ progress span rest,
      (∀ progress', progress.leave span = .ok progress' → motive progress' rest) →
        motive progress (⟨.closing, span⟩ :: rest))
    (introducer : ∀ progress kind span rest, motive (progress.add (.atom kind.word)) rest →
      motive progress (⟨.introducer kind, span⟩ :: rest))
    (atom : ∀ progress name span rest, motive (progress.add (.atom name)) rest →
      motive progress (⟨.atom name, span⟩ :: rest))
    (progress : Progress) (lexemes : List Lexeme) : motive progress lexemes := by
  induction progress, lexemes using readFrom.induct with
  | case1 progress => exact nil progress
  | case2 progress span kind inner name behind rest ih =>
    exact binding progress span kind inner name behind rest ih
  | case3 progress span kind inner other rest h =>
    refine missing progress span kind inner other rest fun name hname => ?_
    exact h name other.span (by rw [← hname])
  | case4 progress span kind inner => exact ended progress span kind inner
  | case5 progress span rest h₁ h₂ h₃ ih =>
    refine group progress span rest ?_ ih
    intro kind inner tail heq
    cases tail with
    | nil => exact h₃ kind inner heq
    | cons other tail => exact h₂ kind inner other tail heq
  | case6 progress span rest fault hleave =>
    refine closing progress span rest fun progress' hleave' => ?_
    rw [hleave] at hleave'
    cases hleave'
  | case7 progress span rest progress' hleave ih =>
    refine closing progress span rest fun other hleave' => ?_
    rw [hleave, Except.ok.injEq] at hleave'
    exact hleave' ▸ ih
  | case8 progress kind span rest ih => exact introducer progress kind span rest ih
  | case9 progress name span rest ih => exact atom progress name span rest ih

/-! ### Reading on -/

/-- **Tokens that are read to their end leave nothing behind**: what follows them is read as from the
start, behind the forms they gave. -/
theorem readFrom_append {left : List Lexeme} {forms : List Form}
    (h : readFrom progress left = .ok forms) (right : List Lexeme) :
    readFrom progress (left ++ right) = readFrom ⟨[], forms.reverse⟩ right := by
  induction progress, left using reading_induction with
  | nil progress =>
    obtain ⟨pending, reversed⟩ := progress
    cases pending with
    | cons inner outer => cases h
    | nil =>
      obtain rfl : reversed.reverse = forms := by simpa [readFrom, Progress.finish] using h
      rw [List.nil_append, List.reverse_reverse]
  | binding progress span kind inner name behind rest ih =>
    rw [readFrom] at h
    rw [List.cons_append, List.cons_append, List.cons_append, readFrom, ih h]
  | missing progress span kind inner other rest hother =>
    rw [readFrom_missing progress hother] at h
    cases h
  | ended progress span kind inner =>
    rw [readFrom] at h
    cases h
  | group progress span rest hrest ih =>
    rw [readFrom_group progress hrest] at h
    -- With nothing behind it the parenthesis would have been left open.
    have hne : rest ≠ [] := by
      rintro rfl
      cases h
    rw [List.cons_append, readFrom_group progress (hrest.append hne right), ih h]
  | closing progress span rest ih =>
    rw [readFrom] at h
    rw [List.cons_append, readFrom]
    cases hleave : progress.leave span with
    | error fault =>
      rw [hleave] at h
      cases h
    | ok progress' =>
      rw [hleave] at h
      exact ih progress' hleave h
  | introducer progress kind span rest ih =>
    rw [readFrom] at h
    rw [List.cons_append, readFrom, ih h]
  | atom progress name span rest ih =>
    rw [readFrom] at h
    rw [List.cons_append, readFrom, ih h]

/-- Reading that has got somewhere, with finished forms in front of all others. -/
def Progress.behind (front : List Form) (progress : Progress) : Progress :=
  ⟨progress.pending, progress.reversed ++ front.reverse⟩

theorem Progress.behind_add (front : List Form) (form : Form) :
    (progress.behind front).add form = (progress.add form).behind front := by
  obtain ⟨pending, reversed⟩ := progress
  cases pending <;> rfl

/-- **Finished forms in front stay in front**, and do not matter for the rest. -/
theorem readFrom_behind (front : List Form) (lexemes : List Lexeme) :
    readFrom (progress.behind front) lexemes = (readFrom progress lexemes).map (front ++ ·) := by
  induction progress, lexemes using reading_induction with
  | nil progress =>
    obtain ⟨pending, reversed⟩ := progress
    cases pending with
    | cons inner outer => rfl
    | nil => simp [readFrom, Progress.behind, Progress.finish, Except.map]
  | binding progress span kind inner name behind rest ih =>
    rw [readFrom, readFrom, ← ih]
    rfl
  | missing progress span kind inner other rest hother =>
    rw [readFrom_missing _ hother, readFrom_missing _ hother]
    rfl
  | ended progress span kind inner =>
    rw [readFrom, readFrom]
    rfl
  | group progress span rest hrest ih =>
    rw [readFrom_group _ hrest, readFrom_group _ hrest, ← ih]
    rfl
  | closing progress span rest ih =>
    rw [readFrom, readFrom]
    obtain ⟨pending, reversed⟩ := progress
    cases pending with
    | nil => rfl
    | cons inner outer =>
      have hrest := ih _ rfl
      rw [← Progress.behind_add] at hrest
      exact hrest
  | introducer progress kind span rest ih =>
    rw [readFrom, readFrom, ← ih, Progress.behind_add]
  | atom progress name span rest ih =>
    rw [readFrom, readFrom, ← ih, Progress.behind_add]

/-- **The forms of tokens behind others**: if the first ones can be read, the forms of the others follow
theirs, and the faults of the others are the faults of the whole. -/
theorem read_append {left : List Lexeme} {forms : List Form} (h : read left = .ok forms)
    (right : List Lexeme) : read (left ++ right) = (read right).map (forms ++ ·) := by
  rw [read, readFrom_append _ h, read, ← readFrom_behind]
  rfl

end Form

end ParenLambda
