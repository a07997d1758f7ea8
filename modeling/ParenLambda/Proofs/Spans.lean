import ParenLambda.Compile
import ParenLambda.Proofs.Reading.Places
import ParenLambda.Proofs.Scanning.Slices
import ParenLambda.Proofs.Shifting

/-!
# The stretch of a form

A parenthesised form records the stretch of the source that it has been read from. This file says that
the record is exact, at every depth: the text of the stretch, taken as a source of its own, is read as
that one form, with all its places moved to the front (`ParenLambda.Form.Located`). Inside the stretch
of a form are the stretches of its members, one behind the other.

The lexemes that a form has been read from are a part of the lexemes of the source, from an opening to
a closing parenthesis. Scanning gives this part again from the text between the two
(`ParenLambda.Token.scan_slice`), and reading gives the form again from this part
(`ParenLambda.Form.ReadOff.read`); and the order of the stretches is that of the lexemes.
-/

namespace ParenLambda

/-! ### Stretches and slices -/

/-- **A stretch covers a slice of a source**: it starts at the byte where the slice does, and it stops
where the slice does. -/
def Span.Covers (source : String) (span : Span) (slice : String) : Prop :=
  ∃ before after, source = before ++ slice ++ after ∧
    span = ⟨before.utf8ByteSize, (before ++ slice).utf8ByteSize⟩

namespace Span.Covers

variable {source slice : String} {span : Span}

theorem stop_eq (h : span.Covers source slice) : span.stop = span.start + slice.utf8ByteSize := by
  obtain ⟨before, after, -, rfl⟩ := h
  exact String.utf8ByteSize_append

theorem stop_le (h : span.Covers source slice) : span.stop ≤ source.utf8ByteSize := by
  obtain ⟨before, after, rfl, rfl⟩ := h
  have hsize : (before ++ slice ++ after).utf8ByteSize =
      (before ++ slice).utf8ByteSize + after.utf8ByteSize := String.utf8ByteSize_append
  rw [hsize]
  exact Nat.le_add_right _ _

/-- The ends of a slice are boundaries between characters. -/
theorem isValid (h : span.Covers source slice) :
    (⟨span.start⟩ : String.Pos.Raw).IsValid source ∧
      (⟨span.stop⟩ : String.Pos.Raw).IsValid source := by
  obtain ⟨before, after, rfl, rfl⟩ := h
  have hfront : (before ++ slice ++ after).toList = before.toList ++ (slice ++ after).toList := by
    simp
  have hback : (before ++ slice ++ after).toList = (before ++ slice).toList ++ after.toList := by
    simp
  have hstart := Text.isValid_byteSize hfront
  have hstop := Text.isValid_byteSize hback
  rw [Text.byteSize_toList] at hstart hstop
  exact ⟨hstart, hstop⟩

end Span.Covers

namespace Form

/-! ### The lexemes of a form -/

/-- **A form stands among forms, at any depth.** -/
inductive Inside (form : Form) : List Form → Prop
  /-- It is one of the forms. -/
  | here {forms : List Form} (hform : form ∈ forms) : Inside form forms
  /-- It stands inside one of the forms. -/
  | deeper {forms : List Form} {parent : Form} (hparent : parent ∈ forms)
      (hform : Inside form parent.members) : Inside form forms

variable {form : Form} {forms : List Form} {lexemes : List Lexeme} {span : Span}

/-- The lexemes that are read as one form are a part of the lexemes. -/
theorem ReadOff.of_mem (h : ReadOff forms lexemes) (hform : form ∈ forms) :
    ∃ left middle right, lexemes = left ++ (middle ++ right) ∧ ReadOff [form] middle := by
  induction h with
  | nil => cases hform
  | @word token name place forms rest hword hrest ih =>
    rcases List.mem_cons.mp hform with rfl | hform
    · exact ⟨[], [⟨token, place⟩], rest, rfl, .word hword .nil⟩
    · obtain ⟨left, middle, right, rfl, hmiddle⟩ := ih hform
      exact ⟨⟨token, place⟩ :: left, middle, right, rfl, hmiddle⟩
  | @parenthesis head members forms opening closing heading inside rest hhead hmembers hrest _ ih =>
    rcases List.mem_cons.mp hform with rfl | hform
    · refine ⟨[], _, rest, ?_, .parenthesis hhead hmembers .nil⟩
      simp
    · obtain ⟨left, middle, right, rfl, hmiddle⟩ := ih hform
      refine ⟨⟨.opening, opening⟩ :: (heading ++ (inside ++ ⟨.closing, closing⟩ :: left)), middle,
        right, ?_, hmiddle⟩
      simp

/-- **A form with a stretch is read from a parenthesis, its heading, its members and the closing
parenthesis**, and the stretch goes from the one parenthesis to the other. -/
theorem ReadOff.exists_parenthesis (h : ReadOff [form] lexemes) (hspan : form.span? = some span) :
    ∃ opening closing heading inside,
      lexemes = ⟨.opening, opening⟩ :: (heading ++ (inside ++ [⟨.closing, closing⟩])) ∧
      span = ⟨opening.start, closing.stop⟩ ∧ ReadOff form.members inside := by
  generalize hforms : [form] = forms at h
  cases h with
  | nil => cases hforms
  | word hword hrest =>
    obtain ⟨rfl, -⟩ := List.cons.inj hforms
    cases hspan
  | @parenthesis head members _ opening closing heading inside rest hhead hmembers hrest =>
    obtain ⟨rfl, rfl⟩ := List.cons.inj hforms
    cases hrest
    rw [span?_parenthesised] at hspan
    refine ⟨opening, closing, heading, inside, rfl, (Option.some.inj hspan).symm, ?_⟩
    rwa [members_parenthesised]

/-- A form with members has a stretch. -/
theorem exists_span_of_mem {parent : Form} (h : form ∈ parent.members) :
    ∃ span, parent.span? = some span := by
  cases parent with
  | atom name => cases h
  | group members span => exact ⟨span, rfl⟩
  | binding kind name members span => exact ⟨span, rfl⟩

/-- **A form at any depth is read from a part of the lexemes.** -/
theorem ReadOff.of_inside (h : ReadOff forms lexemes) (hform : Inside form forms) :
    ∃ left middle right, lexemes = left ++ (middle ++ right) ∧ ReadOff [form] middle := by
  induction hform generalizing lexemes with
  | here hform => exact h.of_mem hform
  | @deeper forms parent hparent hform ih =>
    obtain ⟨left, middle, right, rfl, hmiddle⟩ := h.of_mem hparent
    -- Something is inside the parent, so it is parenthesised and not a word.
    have hmember : ∃ member, member ∈ parent.members := by
      cases hform with
      | here hform => exact ⟨_, hform⟩
      | deeper hmember _ => exact ⟨_, hmember⟩
    obtain ⟨member, hmember⟩ := hmember
    obtain ⟨span, hspan⟩ := exists_span_of_mem hmember
    obtain ⟨opening, closing, heading, inside, rfl, -, hinside⟩ := hmiddle.exists_parenthesis hspan
    obtain ⟨before, part, after, rfl, hpart⟩ := ih hinside
    refine ⟨left ++ ⟨.opening, opening⟩ :: (heading ++ before), part,
      after ++ ⟨.closing, closing⟩ :: right, ?_, hpart⟩
    simp

/-! ### The order of the stretches -/

/-- **Lexemes in the order of a source**: none is empty, and each stops before the next one starts. -/
structure Ordered (lexemes : List Lexeme) : Prop where
  /-- No lexeme is empty. -/
  start_lt : ∀ item ∈ lexemes, item.span.start < item.span.stop
  /-- A lexeme stops before the next one starts. -/
  pairwise : lexemes.Pairwise fun left right => left.span.stop ≤ right.span.start

theorem Ordered.sublist {part : List Lexeme} (h : Ordered lexemes) (hpart : part.Sublist lexemes) :
    Ordered part :=
  ⟨fun item hitem => h.start_lt item (hpart.subset hitem), h.pairwise.sublist hpart⟩

theorem ordered_scan (source : String) : Ordered (Token.scan source) :=
  ⟨fun _ hitem => (Token.place_of_mem_scan hitem).1,
    ((Token.splits_scan source).ordered (.start _)).2⟩

/-- The ends of the stretch of a form are ends of lexemes that the forms are read from. -/
theorem ReadOff.exists_ends (h : ReadOff forms lexemes) (hform : form ∈ forms)
    (hspan : form.span? = some span) :
    ∃ first ∈ lexemes, ∃ last ∈ lexemes, span = ⟨first.span.start, last.span.stop⟩ := by
  obtain ⟨left, middle, right, rfl, hmiddle⟩ := h.of_mem hform
  obtain ⟨opening, closing, heading, inside, rfl, rfl, -⟩ := hmiddle.exists_parenthesis hspan
  exact ⟨⟨.opening, opening⟩, by simp, ⟨.closing, closing⟩, by simp, rfl⟩

/-- **The stretches of forms come one behind the other**, in the order of the forms. -/
theorem ReadOff.pairwise (h : ReadOff forms lexemes) (hordered : Ordered lexemes) :
    (forms.filterMap span?).Pairwise fun left right => left.stop ≤ right.start := by
  induction h with
  | nil => exact List.Pairwise.nil
  | word hword hrest ih => exact ih (hordered.sublist (List.sublist_cons_self _ _))
  | @parenthesis head members forms opening closing heading inside rest hhead hmembers hrest _ ih =>
    have hbehind : (⟨.closing, closing⟩ :: rest).Sublist
        (⟨.opening, opening⟩ :: (heading ++ (inside ++ ⟨.closing, closing⟩ :: rest))) :=
      ((List.sublist_append_right inside _).trans (List.sublist_append_right heading _)).cons _
    have hclosing := hordered.sublist hbehind
    rw [List.filterMap_cons_some (span?_parenthesised head members _), List.pairwise_cons]
    refine ⟨?_, ih (hclosing.sublist (List.sublist_cons_self _ _))⟩
    -- Each form behind this one starts with a lexeme behind the closing parenthesis.
    intro span hspan
    obtain ⟨form, hform, hspan⟩ := List.mem_filterMap.mp hspan
    obtain ⟨first, hfirst, last, -, rfl⟩ := hrest.exists_ends hform hspan
    exact (List.pairwise_cons.mp hclosing.pairwise).1 first hfirst

/-- **The stretch of a member is strictly inside** that of the form. -/
theorem ReadOff.strictly_inside {member : Form} {inner : Span} (h : ReadOff [form] lexemes)
    (hordered : Ordered lexemes) (hspan : form.span? = some span) (hmember : member ∈ form.members)
    (hinner : member.span? = some inner) : span.start < inner.start ∧ inner.stop < span.stop := by
  obtain ⟨opening, closing, heading, inside, rfl, rfl, hinside⟩ := h.exists_parenthesis hspan
  obtain ⟨first, hfirst, last, hlast, rfl⟩ := hinside.exists_ends hmember hinner
  have hopening := hordered.start_lt ⟨.opening, opening⟩ (by simp)
  have hclosing := hordered.start_lt ⟨.closing, closing⟩ (by simp)
  have hbehind := (List.pairwise_cons.mp hordered.pairwise).1 first (by simp [hfirst])
  have hahead : last.span.stop ≤ closing.start := by
    have hrest := (List.pairwise_cons.mp hordered.pairwise).2
    rw [← List.append_assoc, List.pairwise_append] at hrest
    exact hrest.2.2 last (by simp [hlast]) ⟨.closing, closing⟩ (by simp)
  constructor
  · exact Nat.lt_of_lt_of_le hopening hbehind
  · exact Nat.lt_of_le_of_lt hahead hclosing

/-! ### The stretch of a form is its source -/

/-- **The stretch of a form in a source is exact.** -/
structure Located (source : String) (form : Form) (span : Span) : Prop where
  /-- The text of the stretch is parenthesised, and it is read as the form, moved to the front. -/
  slice : ∃ text node, span.Covers source ("(" ++ text ++ ")") ∧
    parse ("(" ++ text ++ ")") = .ok [node] ∧ node.shift span.start = form
  /-- The stretch is not empty. -/
  start_lt_stop : span.start < span.stop
  /-- The stretch stops inside the source. -/
  stop_le : span.stop ≤ source.utf8ByteSize
  /-- The stretch starts and stops between characters. -/
  isValid : (⟨span.start⟩ : String.Pos.Raw).IsValid source ∧
    (⟨span.stop⟩ : String.Pos.Raw).IsValid source
  /-- The stretches of the members are strictly inside. -/
  strictly_inside : ∀ member ∈ form.members, ∀ inner, member.span? = some inner →
    span.start < inner.start ∧ inner.stop < span.stop
  /-- The stretches of the members come one behind the other. -/
  pairwise : (form.members.filterMap span?).Pairwise fun left right => left.stop ≤ right.start

/-- **Reading lexemes that stand further right, the other way round**: what is read from moved lexemes
are moved forms. -/
theorem exists_read_of_shift {bytes : Nat} (h : read (lexemes.map (Lexeme.shift bytes)) = .ok forms) :
    ∃ nodes, read lexemes = .ok nodes ∧ nodes.map (shift bytes) = forms := by
  have hshift := readFrom_shift bytes .empty lexemes
  change read (lexemes.map (Lexeme.shift bytes)) = _ at hshift
  rw [h] at hshift
  change _ = ((read lexemes).map _).mapError _ at hshift
  cases hread : read lexemes with
  | error fault =>
    rw [hread] at hshift
    cases hshift
  | ok nodes =>
    rw [hread] at hshift
    exact ⟨nodes, rfl, (Except.ok.inj hshift).symm⟩

/-- **The text between the two parentheses of a form is read as the form.** -/
theorem ReadOff.exists_slice {source : String} {left middle right : List Lexeme}
    (h : ReadOff [form] middle) (hscan : Token.scan source = left ++ (middle ++ right))
    (hspan : form.span? = some span) :
    ∃ text node, span.Covers source ("(" ++ text ++ ")") ∧
      parse ("(" ++ text ++ ")") = .ok [node] ∧ node.shift span.start = form := by
  obtain ⟨opening, closing, heading, inside, hmiddle, rfl, -⟩ := h.exists_parenthesis hspan
  have hscan' : Token.scan source =
      left ++ ⟨.opening, opening⟩ :: ((heading ++ inside) ++ ⟨.closing, closing⟩ :: right) := by
    rw [hscan, hmiddle]
    simp
  obtain ⟨before, text, after, hsource, hstart, hstop, hslice⟩ := Token.scan_slice hscan'
  -- Scanning the slice gives the lexemes of the form, moved, and reading them gives the form.
  have hread : Form.read ((Token.scan ("(" ++ text ++ ")")).map (Lexeme.shift opening.start)) =
      .ok [form] := by
    rw [hslice, List.append_assoc, ← hmiddle]
    exact h.read
  obtain ⟨nodes, hnodes, hforms⟩ := exists_read_of_shift hread
  obtain ⟨node, rfl, hnode⟩ := List.map_eq_singleton_iff.mp hforms
  refine ⟨text, node, ⟨before, after, hsource, ?_⟩, hnodes, hnode⟩
  rw [hstart, hstop]

/-- **Every recorded stretch is exactly the source of its form.** Whatever a source is read as, the
stretch of each parenthesised form, at any depth, covers a text from an opening to a closing
parenthesis that is read as this form alone; the stretches of its members are strictly inside, one
behind the other; and so are those of the forms of the source, one behind the other. -/
theorem parse_spans {source : String} {forms : List Form} (h : parse source = .ok forms) :
    (∀ form, Inside form forms → ∀ span, form.span? = some span → Located source form span) ∧
      (forms.filterMap span?).Pairwise fun left right => left.stop ≤ right.start := by
  have hforms : ReadOff forms (Token.scan source) := readOff_of_read h
  refine ⟨?_, hforms.pairwise (ordered_scan source)⟩
  intro form hform span hspan
  obtain ⟨left, middle, right, hscan, hmiddle⟩ := hforms.of_inside hform
  have hordered : Ordered middle := by
    refine (ordered_scan source).sublist ?_
    rw [hscan]
    exact (List.sublist_append_left middle right).trans (List.sublist_append_right left _)
  obtain ⟨text, node, hcovers, hnode⟩ := hmiddle.exists_slice hscan hspan
  obtain ⟨opening, closing, heading, inside, rfl, rfl, hinside⟩ := hmiddle.exists_parenthesis hspan
  refine ⟨⟨text, node, hcovers, hnode⟩, ?_, hcovers.stop_le, hcovers.isValid, ?_, ?_⟩
  · have hpositive : 0 < ("(" ++ text ++ ")").utf8ByteSize := by
      rw [String.utf8ByteSize_append, String.utf8ByteSize_append]
      exact Nat.add_pos_right _ (by decide)
    rw [hcovers.stop_eq]
    exact Nat.lt_add_of_pos_right hpositive
  · intro member hmember inner hinner
    exact hmiddle.strictly_inside hordered hspan hmember hinner
  · refine hinside.pairwise (hordered.sublist (List.Sublist.cons _ ?_))
    exact (List.sublist_append_left inside _).trans (List.sublist_append_right heading _)

/-- A source with a character of two bytes in front and a parenthesis in a comment: the stretch of the
inner form. -/
theorem parse_spans_comment :
    parse "é (f (λ x;)\n x))" =
        .ok [.atom "é",
          .group [.atom "f", .binding .abstraction "x" [.atom "x"] ⟨6, 17⟩] ⟨3, 18⟩] ∧
      Located "é (f (λ x;)\n x))" (.binding .abstraction "x" [.atom "x"] ⟨6, 17⟩) ⟨6, 17⟩ ∧
      Located "é (f (λ x;)\n x))"
        (.group [.atom "f", .binding .abstraction "x" [.atom "x"] ⟨6, 17⟩] ⟨3, 18⟩) ⟨3, 18⟩ := by
  have h : parse "é (f (λ x;)\n x))" =
      .ok [.atom "é",
        .group [.atom "f", .binding .abstraction "x" [.atom "x"] ⟨6, 17⟩] ⟨3, 18⟩] := rfl
  have hgroup : Form.group [.atom "f", .binding .abstraction "x" [.atom "x"] ⟨6, 17⟩] ⟨3, 18⟩ ∈
      [.atom "é", .group [.atom "f", .binding .abstraction "x" [.atom "x"] ⟨6, 17⟩] ⟨3, 18⟩] :=
    List.mem_cons_of_mem _ List.mem_cons_self
  refine ⟨h, (parse_spans h).1 _ ?_ _ rfl, (parse_spans h).1 _ ?_ _ rfl⟩
  · exact .deeper hgroup (.here (List.mem_cons_of_mem _ List.mem_cons_self))
  · exact .here hgroup

end Form

end ParenLambda
