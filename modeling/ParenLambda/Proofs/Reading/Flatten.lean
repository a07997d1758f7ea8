import ParenLambda.Proofs.Reading.Steps
import ParenLambda.Proofs.Relocation

/-!
# Reading back the tokens of a form

The tokens that a form is read from are read as that form again, whatever the places of the tokens
and whatever follows them. Reading is in the middle of something when it meets the tokens of a
member, so the statement is about any state of reading: the tokens of a form add one form to the
state, equal to it but for the places.
-/

namespace ParenLambda

namespace Form

/-! ### The front of flattened forms -/

/-- The tokens of a form start with an opening parenthesis or an atom. -/
theorem flatten_eq_cons (form : Form) :
    ∃ token tokens, form.flatten = token :: tokens ∧ ∀ kind, token ≠ .introducer kind := by
  cases form with
  | atom name => exact ⟨.atom name, [], rfl, by rintro kind ⟨⟩⟩
  | group members span => exact ⟨.opening, _, rfl, by rintro kind ⟨⟩⟩
  | binding kind name members span => exact ⟨.opening, _, rfl, by rintro kind ⟨⟩⟩

/-- Behind the tokens of some forms comes a closing parenthesis, so no introducer stands in front. -/
theorem unintroduced_flattenAll {forms : List Form} {lexemes : List Lexeme}
    (h : lexemes.map Lexeme.token = flattenAll forms) (span : Span) (rest : List Lexeme) :
    Unintroduced (lexemes ++ ⟨.closing, span⟩ :: rest) := by
  cases forms with
  | nil =>
    rw [flattenAll, List.map_eq_nil_iff] at h
    subst h
    exact unintroduced_cons (by rintro kind ⟨⟩) span rest
  | cons form forms =>
    obtain ⟨token, tokens, hform, htoken⟩ := form.flatten_eq_cons
    rw [flattenAll, hform, List.cons_append, List.map_eq_cons_iff] at h
    obtain ⟨first, others, rfl, rfl, -⟩ := h
    exact unintroduced_cons htoken first.span _

/-! ### Adding several forms -/

/-- Several more finished forms, in order. -/
def Progress.addAll (progress : Progress) (forms : List Form) : Progress :=
  forms.foldl (fun progress form => progress.add form) progress

@[simp] theorem Progress.addAll_cons (progress : Progress) (form : Form) (forms : List Form) :
    progress.addAll (form :: forms) = (progress.add form).addAll forms := rfl

/-- Forms added behind an open parenthesis are what it holds. -/
theorem Progress.addAll_pending (inner : Pending) (outer : List Pending)
    (reversed forms : List Form) :
    Progress.addAll ⟨inner :: outer, reversed⟩ forms =
      ⟨{ inner with reversed := forms.reverse ++ inner.reversed } :: outer, reversed⟩ := by
  induction forms generalizing inner with
  | nil => rfl
  | cons form forms ih =>
    rw [addAll_cons, add, ih]
    simp

theorem Progress.addAll_empty (reversed forms : List Form) :
    Progress.addAll ⟨[], reversed⟩ forms = ⟨[], forms.reverse ++ reversed⟩ := by
  induction forms generalizing reversed with
  | nil => rfl
  | cons form forms ih =>
    rw [addAll_cons, add, ih]
    simp

/-- An open parenthesis that is filled and closed adds one form. -/
theorem readFrom_enter_addAll (progress : Progress) (head : Option (Introducer × String))
    (start : Nat) (forms : List Form) (span : Span) (rest : List Lexeme) :
    readFrom ((progress.enter head start).addAll forms) (⟨.closing, span⟩ :: rest) =
      readFrom (progress.add (Pending.close ⟨head, start, forms.reverse⟩ span.stop)) rest := by
  rw [Progress.enter, Progress.addAll_pending, readFrom, List.append_nil]
  rfl

/-! ### Reading back -/

/-- Tokens of forms are read as forms that are equal but for their places, if this holds of each. -/
theorem readFrom_flattenAll_of_forall {forms : List Form}
    (h : ∀ form ∈ forms, ∀ progress lexemes rest, lexemes.map Lexeme.token = form.flatten →
      ∃ found : Form, found.bare = form.bare ∧
        readFrom progress (lexemes ++ rest) = readFrom (progress.add found) rest)
    (progress : Progress) {lexemes : List Lexeme} (rest : List Lexeme)
    (hlexemes : lexemes.map Lexeme.token = flattenAll forms) :
    ∃ found : List Form, found.map bare = forms.map bare ∧
      readFrom progress (lexemes ++ rest) = readFrom (progress.addAll found) rest := by
  induction forms generalizing progress lexemes with
  | nil =>
    rw [flattenAll, List.map_eq_nil_iff] at hlexemes
    subst hlexemes
    exact ⟨[], rfl, rfl⟩
  | cons form forms ih =>
    rw [flattenAll, List.map_eq_append_iff] at hlexemes
    obtain ⟨front, back, rfl, hfront, hback⟩ := hlexemes
    obtain ⟨head, hhead, hread⟩ := h form List.mem_cons_self progress front (back ++ rest) hfront
    obtain ⟨tail, htail, hreadAll⟩ :=
      ih (fun other hother => h other (List.mem_cons_of_mem _ hother)) (progress.add head) hback
    refine ⟨head :: tail, by rw [List.map_cons, List.map_cons, hhead, htail], ?_⟩
    rw [List.append_assoc, hread, hreadAll, Progress.addAll_cons]

/-- **The tokens of a form are read as the form**, up to its places. -/
theorem readFrom_flatten (form : Form) (progress : Progress) (lexemes rest : List Lexeme)
    (h : lexemes.map Lexeme.token = form.flatten) :
    ∃ found : Form, found.bare = form.bare ∧
      readFrom progress (lexemes ++ rest) = readFrom (progress.add found) rest := by
  induction form using Form.induction generalizing progress lexemes rest with
  | atom name =>
    rw [flatten, List.map_eq_singleton_iff] at h
    obtain ⟨lexeme, rfl, hlexeme⟩ := h
    refine ⟨.atom name, rfl, ?_⟩
    obtain ⟨token, span⟩ := lexeme
    subst hlexeme
    rw [List.singleton_append, readFrom]
  | group members span ih =>
    rw [flatten, List.map_eq_cons_iff] at h
    obtain ⟨⟨_, start⟩, lexemes, rfl, rfl, h⟩ := h
    rw [List.map_eq_append_iff] at h
    obtain ⟨inside, last, rfl, hinside, hlast⟩ := h
    rw [List.map_eq_singleton_iff] at hlast
    obtain ⟨⟨_, stop⟩, rfl, rfl⟩ := hlast
    obtain ⟨found, hfound, hread⟩ := readFrom_flattenAll_of_forall ih
      (progress.enter none start.start) (⟨.closing, stop⟩ :: rest) hinside
    refine ⟨.group found ⟨start.start, stop.stop⟩, ?_, ?_⟩
    · rw [bare_group, bare_group, hfound]
    · rw [List.cons_append, List.append_assoc, List.singleton_append,
        readFrom_group _ (unintroduced_flattenAll hinside stop rest), hread, readFrom_enter_addAll,
        Pending.close, List.reverse_reverse]
  | binding kind name members span ih =>
    rw [flatten, List.map_eq_cons_iff] at h
    obtain ⟨⟨_, start⟩, lexemes, rfl, rfl, h⟩ := h
    rw [List.map_eq_cons_iff] at h
    obtain ⟨⟨_, inner⟩, lexemes, rfl, rfl, h⟩ := h
    rw [List.map_eq_cons_iff] at h
    obtain ⟨⟨_, behind⟩, lexemes, rfl, rfl, h⟩ := h
    rw [List.map_eq_append_iff] at h
    obtain ⟨inside, last, rfl, hinside, hlast⟩ := h
    rw [List.map_eq_singleton_iff] at hlast
    obtain ⟨⟨_, stop⟩, rfl, rfl⟩ := hlast
    obtain ⟨found, hfound, hread⟩ := readFrom_flattenAll_of_forall ih
      (progress.enter (some (kind, name)) start.start) (⟨.closing, stop⟩ :: rest) hinside
    refine ⟨.binding kind name found ⟨start.start, stop.stop⟩, ?_, ?_⟩
    · rw [bare_binding, bare_binding, hfound]
    · rw [List.cons_append, List.cons_append, List.cons_append, List.append_assoc,
        List.singleton_append, readFrom, hread, readFrom_enter_addAll, Pending.close,
        List.reverse_reverse]

/-- **The tokens of forms are read as the forms**, up to their places. -/
theorem read_flattenAll {forms : List Form} {lexemes : List Lexeme}
    (h : lexemes.map Lexeme.token = flattenAll forms) :
    ∃ found : List Form, found.map bare = forms.map bare ∧ read lexemes = .ok found := by
  obtain ⟨found, hfound, hread⟩ :=
    readFrom_flattenAll_of_forall (fun form _ => readFrom_flatten form) Progress.empty [] h
  refine ⟨found, hfound, ?_⟩
  rw [List.append_nil] at hread
  rw [read, hread, Progress.empty, Progress.addAll_empty, readFrom, Progress.finish,
    List.append_nil, List.reverse_reverse]

end Form

end ParenLambda
