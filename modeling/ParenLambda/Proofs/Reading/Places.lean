import ParenLambda.Proofs.Reading.Flatten

/-!
# Forms and the lexemes they are read from

Flattening a form forgets where its tokens stand. The relation of this file, `ParenLambda.Form.ReadOff`,
does not: it holds between forms and the very lexemes that they have been read from, so that the
stretch of a form is seen to reach from its opening to its closing parenthesis.

Both halves of reading are stated for the middle of a source. Whatever has been read so far, the
lexemes of some forms add these forms (`ParenLambda.Form.ReadOff.readFrom`). And however far reading
comes, all that it has read is accounted for (`ParenLambda.Form.Gathered`): the lexemes of the finished
forms, and then, for each parenthesis that is still open, its own lexeme, its heading and the lexemes
of the forms in it.

Reading is cut where it stops. `ParenLambda.Form.Passes` is a stretch of reading without a fault, and
`ParenLambda.Form.Stops` says what can come at the end of it: the end of the tokens, or one of the three
faults that a token, or a missing one, can be.
-/

namespace ParenLambda

namespace Form

/-! ### Words and headings -/

/-- **A token read as a word**: an atom, or an introducer where none is expected. -/
inductive IsWord : Token → String → Prop
  /-- An atom. -/
  | atom (name : String) : IsWord (.atom name) name
  /-- A stray introducer. -/
  | introducer (kind : Introducer) : IsWord (.introducer kind) kind.word

/-- **The heading of a parenthesis**, between it and `rest`: nothing for a group, where no introducer
may come next, and an introducer and a name for a binding. -/
inductive Heading (rest : List Lexeme) : Option (Introducer × String) → List Lexeme → Prop
  /-- A group. -/
  | group (hrest : Unintroduced rest) : Heading rest none []
  /-- A binding. -/
  | binding {kind : Introducer} {name : String} {inner behind : Span} :
      Heading rest (some (kind, name)) [⟨.introducer kind, inner⟩, ⟨.atom name, behind⟩]

theorem unintroduced_nil : Unintroduced [] := by
  rintro kind span rest ⟨⟩

theorem Unintroduced.concat {left right : List Lexeme} (hleft : Unintroduced left)
    (hright : Unintroduced right) : Unintroduced (left ++ right) := by
  cases left with
  | nil => exact hright
  | cons first rest => exact hleft.append (List.cons_ne_nil first rest) right

theorem Unintroduced.of_append {left right : List Lexeme} (h : Unintroduced (left ++ right)) :
    Unintroduced left := by
  rintro kind span rest rfl
  exact h kind span (rest ++ right) rfl

variable {progress next : Progress} {head : Option (Introducer × String)}
  {heading inside passed rest lexemes : List Lexeme} {forms : List Form}

theorem Heading.concat (h : Heading inside head heading) (hrest : Unintroduced rest) :
    Heading (inside ++ rest) head heading := by
  cases h with
  | group hinside => exact .group (hinside.concat hrest)
  | binding => exact .binding

theorem Heading.of_append (h : Heading (inside ++ rest) head heading) :
    Heading inside head heading := by
  cases h with
  | group hinside => exact .group hinside.of_append
  | binding => exact .binding

theorem readFrom_heading (h : Heading rest head heading) (progress : Progress) (span : Span) :
    readFrom progress (⟨.opening, span⟩ :: (heading ++ rest)) =
      readFrom (progress.enter head span.start) rest := by
  cases h with
  | group hrest => exact readFrom_group progress hrest span
  | binding => rw [List.cons_append, List.singleton_append, readFrom]

theorem readFrom_word {token : Token} {name : String} (h : IsWord token name)
    (progress : Progress) (span : Span) (rest : List Lexeme) :
    readFrom progress (⟨token, span⟩ :: rest) = readFrom (progress.add (.atom name)) rest := by
  cases h with
  | atom name => rw [readFrom]
  | introducer kind => rw [readFrom]

/-! ### Forms and lexemes -/

/-- The form of a parenthesis with a heading and members. -/
def parenthesised (head : Option (Introducer × String)) (members : List Form) (span : Span) : Form :=
  Pending.close ⟨head, span.start, members.reverse⟩ span.stop

@[simp] theorem members_parenthesised (head : Option (Introducer × String)) (members : List Form)
    (span : Span) : (parenthesised head members span).members = members := by
  cases head <;> exact List.reverse_reverse members

@[simp] theorem span?_parenthesised (head : Option (Introducer × String)) (members : List Form)
    (span : Span) : (parenthesised head members span).span? = some span := by
  cases head <;> rfl

/-- **The forms that lexemes are read as**, and the places of the forms with them. -/
inductive ReadOff : List Form → List Lexeme → Prop
  /-- Nothing is read as nothing. -/
  | nil : ReadOff [] []
  /-- A word, and then the rest. -/
  | word {token : Token} {name : String} {span : Span} {forms : List Form} {rest : List Lexeme}
      (hword : IsWord token name) (hrest : ReadOff forms rest) :
      ReadOff (.atom name :: forms) (⟨token, span⟩ :: rest)
  /-- A parenthesis with its heading and its members, closed, and then the rest. -/
  | parenthesis {head : Option (Introducer × String)} {members forms : List Form}
      {opening closing : Span} {heading inside rest : List Lexeme}
      (hhead : Heading inside head heading) (hmembers : ReadOff members inside)
      (hrest : ReadOff forms rest) :
      ReadOff (parenthesised head members ⟨opening.start, closing.stop⟩ :: forms)
        (⟨.opening, opening⟩ :: (heading ++ (inside ++ ⟨.closing, closing⟩ :: rest)))

theorem ReadOff.append {others : List Form} (hleft : ReadOff forms lexemes)
    (hright : ReadOff others rest) : ReadOff (forms ++ others) (lexemes ++ rest) := by
  induction hleft with
  | nil => exact hright
  | word hword hrest ih => exact .word hword ih
  | parenthesis hhead hmembers hrest _ ih =>
    rw [List.cons_append, List.cons_append, List.append_assoc, List.append_assoc, List.cons_append]
    exact .parenthesis hhead hmembers ih

/-- **Lexemes are read as the forms they go with**, in the middle of whatever has been read, and the
places are those of the lexemes. -/
theorem ReadOff.readFrom (h : ReadOff forms lexemes) (progress : Progress) (rest : List Lexeme) :
    readFrom progress (lexemes ++ rest) = readFrom (progress.addAll forms) rest := by
  induction h generalizing progress rest with
  | nil => rfl
  | word hword hrest ih =>
    rw [List.cons_append, readFrom_word hword, ih, Progress.addAll_cons]
  | @parenthesis head members forms opening closing heading inside behind hhead _ _ ihInside ihRest =>
    have hclosing : Unintroduced (⟨.closing, closing⟩ :: (behind ++ rest)) :=
      unintroduced_cons (by rintro kind ⟨⟩) closing _
    have hsplit : (⟨.opening, opening⟩ :: (heading ++ (inside ++ ⟨.closing, closing⟩ :: behind))) ++
        rest = ⟨.opening, opening⟩ ::
          (heading ++ (inside ++ ⟨.closing, closing⟩ :: (behind ++ rest))) := by
      simp
    rw [hsplit, readFrom_heading (hhead.concat hclosing), ihInside, readFrom_enter_addAll, ihRest,
      Progress.addAll_cons]
    rfl

theorem ReadOff.read (h : ReadOff forms lexemes) : read lexemes = .ok forms := by
  have hread := h.readFrom Progress.empty []
  rw [List.append_nil, Progress.empty, Progress.addAll_empty, List.append_nil] at hread
  rw [Form.read, Progress.empty, hread, Form.readFrom, Progress.finish, List.reverse_reverse]

/-! ### A stretch of reading -/

/-- **A stretch of reading without a fault**, from how far it has come to how far it gets, and the
lexemes that it passes. -/
inductive Passes : Progress → List Lexeme → Progress → Prop
  /-- Nothing more is read. -/
  | here {progress : Progress} : Passes progress [] progress
  /-- A parenthesis opens. -/
  | enter {progress next : Progress} {head : Option (Introducer × String)} {span : Span}
      {heading passed : List Lexeme} (hhead : Heading passed head heading)
      (hpassed : Passes (progress.enter head span.start) passed next) :
      Passes progress (⟨.opening, span⟩ :: (heading ++ passed)) next
  /-- The innermost parenthesis closes. -/
  | leave {progress middle next : Progress} {span : Span} {passed : List Lexeme}
      (hleave : progress.leave span = .ok middle) (hpassed : Passes middle passed next) :
      Passes progress (⟨.closing, span⟩ :: passed) next
  /-- A word. -/
  | word {progress next : Progress} {token : Token} {name : String} {span : Span}
      {passed : List Lexeme} (hword : IsWord token name)
      (hpassed : Passes (progress.add (.atom name)) passed next) :
      Passes progress (⟨token, span⟩ :: passed) next

/-- What comes behind a stretch of reading is read from how far it got. -/
theorem Passes.readFrom_append (h : Passes progress passed next) (hrest : Unintroduced rest) :
    readFrom progress (passed ++ rest) = readFrom next rest := by
  induction h with
  | here => rfl
  | enter hhead _ ih =>
    rw [List.cons_append, List.append_assoc, readFrom_heading (hhead.concat hrest), ih]
  | leave hleave _ ih =>
    rw [List.cons_append, readFrom, hleave]
    exact ih
  | word hword _ ih => rw [List.cons_append, readFrom_word hword, ih]

/-- **What reading stops at**, and what becomes of it. -/
inductive Stops : Progress → List Lexeme → Except Fault (List Form) → Prop
  /-- The tokens have ended. -/
  | finish {progress : Progress} : Stops progress [] progress.finish
  /-- A closing parenthesis comes where none is open. -/
  | unexpected {reversed : List Form} {span : Span} {rest : List Lexeme} :
      Stops ⟨[], reversed⟩ (⟨.closing, span⟩ :: rest) (.error (.unexpectedClosing span.start))
  /-- No name follows an introducer, but another token does. -/
  | missing {progress : Progress} {kind : Introducer} {span inner : Span} {other : Lexeme}
      {rest : List Lexeme} (hother : ∀ name, other.token ≠ .atom name) :
      Stops progress (⟨.opening, span⟩ :: ⟨.introducer kind, inner⟩ :: other :: rest)
        (.error (.missingName kind other.token.describe other.span.start))
  /-- Nothing follows an introducer. -/
  | ended {progress : Progress} {kind : Introducer} {span inner : Span} :
      Stops progress [⟨.opening, span⟩, ⟨.introducer kind, inner⟩]
        (.error (.missingName kind endOfInput inner.stop))

/-- **Reading goes on until it stops**: by induction along reading, whatever it has read so far. -/
theorem exists_passes (progress : Progress) (lexemes : List Lexeme) :
    ∃ passed next rest, lexemes = passed ++ rest ∧ Passes progress passed next ∧
      Stops next rest (readFrom progress lexemes) := by
  induction progress, lexemes using reading_induction with
  | nil progress =>
    refine ⟨[], progress, [], rfl, .here, ?_⟩
    rw [readFrom]
    exact .finish
  | binding progress span kind inner name behind rest ih =>
    obtain ⟨passed, next, rest, rfl, hpassed, hstops⟩ := ih
    rw [readFrom]
    exact ⟨_, next, rest, rfl, .enter .binding hpassed, hstops⟩
  | missing progress span kind inner other rest hother =>
    refine ⟨[], progress, _, rfl, .here, ?_⟩
    rw [readFrom_missing progress hother]
    exact .missing hother
  | ended progress span kind inner =>
    refine ⟨[], progress, _, rfl, .here, ?_⟩
    rw [readFrom]
    exact .ended
  | group progress span rest hrest ih =>
    rw [readFrom_group progress hrest]
    obtain ⟨passed, next, rest, rfl, hpassed, hstops⟩ := ih
    exact ⟨_, next, rest, rfl, .enter (.group hrest.of_append) hpassed, hstops⟩
  | closing progress span rest ih =>
    rw [readFrom]
    obtain ⟨pending, reversed⟩ := progress
    cases pending with
    | nil => exact ⟨[], ⟨[], reversed⟩, _, rfl, .here, .unexpected⟩
    | cons inner outer =>
      obtain ⟨passed, next, rest, rfl, hpassed, hstops⟩ := ih _ rfl
      exact ⟨_, next, rest, rfl, .leave rfl hpassed, hstops⟩
  | introducer progress kind span rest ih =>
    rw [readFrom]
    obtain ⟨passed, next, rest, rfl, hpassed, hstops⟩ := ih
    exact ⟨_, next, rest, rfl, .word (.introducer kind) hpassed, hstops⟩
  | atom progress name span rest ih =>
    rw [readFrom]
    obtain ⟨passed, next, rest, rfl, hpassed, hstops⟩ := ih
    exact ⟨_, next, rest, rfl, .word (.atom name) hpassed, hstops⟩

/-! ### What has been read so far -/

/-- **What reading has gathered** from the lexemes `done`, with `rest` to come: the finished forms, and
the parentheses that are open, each with its heading and the forms in it. -/
inductive Gathered : Progress → List Lexeme → List Lexeme → Prop
  /-- Reading is outside all parentheses. -/
  | outside {forms : List Form} {done rest : List Lexeme} (hforms : ReadOff forms done) :
      Gathered ⟨[], forms.reverse⟩ done rest
  /-- Reading is inside a parenthesis, behind all that comes before it. -/
  | inside {outer : List Pending} {reversed members : List Form}
      {head : Option (Introducer × String)} {span : Span} {front heading inside rest : List Lexeme}
      (houter : Gathered ⟨outer, reversed⟩ front
        (⟨.opening, span⟩ :: (heading ++ (inside ++ rest))))
      (hhead : Heading (inside ++ rest) head heading) (hmembers : ReadOff members inside) :
      Gathered ⟨⟨head, span.start, members.reverse⟩ :: outer, reversed⟩
        (front ++ ⟨.opening, span⟩ :: (heading ++ inside)) rest

/-- One more form joins what is innermost. -/
theorem Gathered.add {done : List Lexeme} {form : Form} (h : Gathered progress done (lexemes ++ rest))
    (hform : ReadOff [form] lexemes) : Gathered (progress.add form) (done ++ lexemes) rest := by
  generalize hall : lexemes ++ rest = all at h
  cases h with
  | @outside forms _ _ hforms =>
    have h : Gathered ⟨[], (forms ++ [form]).reverse⟩ (done ++ lexemes) rest :=
      .outside (hforms.append hform)
    rwa [List.reverse_append] at h
  | @inside outer reversed members head span front heading inside _ houter hhead hmembers =>
    subst hall
    rw [← List.append_assoc inside] at houter hhead
    have h := Gathered.inside houter hhead (hmembers.append hform)
    simpa [Progress.add] using h

theorem Gathered.enter {done : List Lexeme} {span : Span}
    (h : Gathered progress done (⟨.opening, span⟩ :: (heading ++ rest)))
    (hhead : Heading rest head heading) :
    Gathered (progress.enter head span.start) (done ++ ⟨.opening, span⟩ :: heading) rest := by
  have hinside := @Gathered.inside _ _ [] head span done heading [] rest h hhead .nil
  rwa [List.append_nil] at hinside

/-- A parenthesis that closes becomes one form, with all its lexemes. -/
theorem Gathered.leave {done : List Lexeme} {span : Span}
    (h : Gathered progress done (⟨.closing, span⟩ :: rest)) (hleave : progress.leave span = .ok next) :
    Gathered next (done ++ [⟨.closing, span⟩]) rest := by
  cases h with
  | outside hforms => cases hleave
  | @inside outer reversed members head opening front heading inside _ houter hhead hmembers =>
    cases hleave
    change Gathered (Progress.add (parenthesised head members ⟨opening.start, span.stop⟩) _) _ rest
    have hform : ReadOff [parenthesised head members ⟨opening.start, span.stop⟩]
        (⟨.opening, opening⟩ :: (heading ++ (inside ++ [⟨.closing, span⟩]))) :=
      .parenthesis hhead.of_append hmembers .nil
    have houter' : Gathered ⟨outer, reversed⟩ front
        ((⟨.opening, opening⟩ :: (heading ++ (inside ++ [⟨.closing, span⟩]))) ++ rest) := by
      simpa using houter
    have hadd := houter'.add hform
    simpa using hadd

/-- **All that is read is gathered.** -/
theorem Passes.gathered {done : List Lexeme} (h : Passes progress passed next)
    (hrest : Unintroduced rest) (hdone : Gathered progress done (passed ++ rest)) :
    Gathered next (done ++ passed) rest := by
  induction h generalizing done with
  | here => rwa [List.append_nil]
  | enter hhead _ ih =>
    rw [List.cons_append, List.append_assoc] at hdone
    have h := ih (hdone.enter (hhead.concat hrest))
    simpa using h
  | leave hleave _ ih =>
    have h := ih (hdone.leave hleave)
    simpa using h
  | @word progress next token name span passed hword _ ih =>
    have hform : ReadOff [.atom name] [⟨token, span⟩] := .word hword .nil
    have hsplit : Gathered progress done ([⟨token, span⟩] ++ (passed ++ rest)) := hdone
    have h := ih (hsplit.add hform)
    simpa using h

theorem Passes.gathered_empty (h : Passes .empty passed next) (hrest : Unintroduced rest) :
    Gathered next passed rest := by
  have hstart : Gathered .empty [] (passed ++ rest) := .outside .nil
  exact h.gathered hrest hstart

/-- **The forms that are read go with the lexemes they are read from.** -/
theorem readOff_of_read (h : Form.read lexemes = .ok forms) : ReadOff forms lexemes := by
  obtain ⟨passed, next, rest, rfl, hpassed, hstops⟩ := exists_passes .empty lexemes
  rw [Form.read] at h
  rw [h] at hstops
  generalize hresult : Except.ok forms = result at hstops
  cases hstops with
  | finish =>
    have hgathered := hpassed.gathered_empty unintroduced_nil
    rw [List.append_nil]
    cases hgathered with
    | outside hforms =>
      rw [Progress.finish, List.reverse_reverse] at hresult
      cases hresult
      exact hforms
    | inside houter hhead hmembers => cases hresult
  | unexpected => cases hresult
  | missing hother => cases hresult
  | ended => cases hresult

end Form

end ParenLambda
