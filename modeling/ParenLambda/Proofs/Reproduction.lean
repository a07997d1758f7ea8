import ParenLambda.Proofs.Arity
import ParenLambda.Proofs.Concatenation
import ParenLambda.Proofs.Spans

/-!
# A fault of arity is reproduced by its stretch

A fault of arity names a form that has the wrong number of members. This file says that nothing else of
the source is to blame: the text of the form, taken as a source of its own, fails in the same way, and
the text of every form inside it compiles.

The fault that is reported is the first in post-order, and **post-order is the order of the closing
parentheses** (`ParenLambda.Form.ReadOff.sublist_stops`). So of the forms of the source, every one that
is closed before the faulty one is without a fault, and so are the forms inside it, which are closed
earlier still. What is outside the faulty form plays no part, since compiling is local: the text of a
form is read as that form, moved to the front, and the terms of moved forms are the same.
-/

namespace ParenLambda

namespace Fault

/-- **A fault of arity**: a form has the wrong number of members. -/
def isArity : Fault → Bool
  | emptyGroup _ => true
  | applicationArity _ _ => true
  | bindingArity _ _ _ _ => true
  | _ => false

/-- The fault at the front of a text that is moved to a given fault of arity has the same size. -/
theorem eq_relocate_of_shift {own fault : Fault} {span : Span} (harity : fault.isArity)
    (hspan : fault.span? = some span) (h : own.shift span.start = fault) :
    own = fault.relocate fun _ => ⟨0, span.size⟩ := by
  have hfront : ∀ front : Span, some (front.shift span.start) = some span →
      front = ⟨0, span.size⟩ := by
    rintro ⟨start, stop⟩ hfront
    have hstart : start + span.start = span.start := congrArg Span.start (Option.some.inj hfront)
    have hstop : stop + span.start = span.stop := congrArg Span.stop (Option.some.inj hfront)
    rw [Span.mk.injEq, Span.size]
    omega
  subst h
  cases own with
  | emptyGroup front =>
    rw [hfront front hspan]
    rfl
  | applicationArity found front =>
    rw [hfront front hspan]
    rfl
  | bindingArity kind name found front =>
    rw [hfront front hspan]
    rfl
  | _ => cases harity

end Fault

namespace Form

variable {form other : Form} {forms : List Form} {lexemes : List Lexeme} {fault : Fault}
  {span inner : Span}

/-! ### Faults of reading, and faults of single forms -/

/-- Reading does not count members. -/
theorem isArity_of_read (h : read lexemes = .error fault) : fault.isArity = false := by
  obtain ⟨passed, next, rest, -, -, hstops⟩ := exists_passes .empty lexemes
  rw [read] at h
  rw [h] at hstops
  generalize hresult : Except.error fault = result at hstops
  cases hstops with
  | finish =>
    obtain ⟨pending, reversed⟩ := next
    cases pending with
    | nil => cases hresult
    | cons innermost outer =>
      cases hresult
      rfl
  | unexpected =>
    cases hresult
    rfl
  | missing hother =>
    cases hresult
    rfl
  | ended =>
    cases hresult
    rfl

/-- **A form with the wrong number of members**, and the fault that says so, with the number that the
form really has. -/
inductive Misshapen : Form → Fault → Prop
  /-- A group without members. -/
  | emptyGroup {span : Span} : Misshapen (.group [] span) (.emptyGroup span)
  /-- A group that is to be an application. -/
  | application {first : Form} {rest : List Form} {span : Span} (hbinding : first.isBinding = false)
      (hlength : (first :: rest).length ≠ 2) :
      Misshapen (.group (first :: rest) span) (.applicationArity (first :: rest).length span)
  /-- A binding. -/
  | binding {kind : Introducer} {name : String} {members : List Form} {span : Span}
      (hlength : members.length ≠ 1) :
      Misshapen (.binding kind name members span) (.bindingArity kind name members.length span)

theorem misshapen_of_arityFault? (h : form.arityFault? = some fault) : form.Misshapen fault := by
  cases form with
  | atom name => cases h
  | group members span =>
    cases members with
    | nil =>
      cases h
      exact .emptyGroup
    | cons first rest =>
      rw [arityFault?] at h
      split at h
      · cases h
      · next hgroup =>
        rw [not_or] at hgroup
        cases h
        exact .application (Bool.eq_false_iff.mpr hgroup.1) hgroup.2
  | binding kind name members span =>
    rw [arityFault?] at h
    split at h
    · cases h
    · next hlength =>
      cases h
      exact .binding hlength

/-- The fault of a form is about the stretch of the form. -/
theorem Misshapen.span?_eq (h : form.Misshapen fault) : form.span? = fault.span? := by
  cases h <;> rfl

theorem Misshapen.isArity (h : form.Misshapen fault) : fault.isArity := by
  cases h <;> rfl

theorem Misshapen.exists_span (h : form.Misshapen fault) : ∃ span, form.span? = some span := by
  cases h <;> exact ⟨_, rfl⟩

/-- A form without a stretch is a word, and has no fault. -/
theorem arityFault?_eq_none (h : form.span? = none) : form.arityFault? = none := by
  cases form with
  | atom name => rfl
  | group members span => cases h
  | binding kind name members span => cases h

/-! ### Post-order -/

theorem postorder_of_span? (h : form.span? = some span) :
    form.postorder = postorderAll form.members ++ [form] := by
  cases form with
  | atom name => cases h
  | group members span => rfl
  | binding kind name members span => rfl

theorem mem_postorderAll :
    form ∈ postorderAll forms ↔ ∃ parent ∈ forms, form ∈ parent.postorder := by
  induction forms with
  | nil => simp [postorderAll]
  | cons first rest ih => simp [postorderAll, ih]

/-- Post-order has a form itself, and what is inside it. -/
theorem mem_postorder :
    form ∈ other.postorder ↔ form = other ∨ form ∈ postorderAll other.members := by
  cases other with
  | atom name => simp [postorder, members, postorderAll]
  | group members span => simp [postorder, Form.members, or_comm]
  | binding kind name members span => simp [postorder, Form.members, or_comm]

/-- **Post-order has the forms at every depth**, and no others. -/
theorem mem_postorderAll_iff_inside : form ∈ postorderAll forms ↔ Inside form forms := by
  have hlist : ∀ members : List Form,
      (∀ member ∈ members, form ∈ member.postorder → form = member ∨ Inside form member.members) →
        form ∈ postorderAll members → Inside form members := by
    intro members hmembers hform
    obtain ⟨member, hmember, hform⟩ := mem_postorderAll.mp hform
    rcases hmembers member hmember hform with rfl | hinside
    · exact .here hmember
    · exact .deeper hmember hinside
  have hsingle : ∀ parent : Form, form ∈ parent.postorder →
      form = parent ∨ Inside form parent.members := by
    intro parent
    induction parent using Form.induction with
    | atom name => exact fun hform => Or.inl (List.mem_singleton.mp hform)
    | group members span ih => exact fun hform => (mem_postorder.mp hform).imp_right (hlist members ih)
    | binding kind name members span ih =>
      exact fun hform => (mem_postorder.mp hform).imp_right (hlist members ih)
  constructor
  · exact hlist forms fun member _ => hsingle member
  · intro hform
    induction hform with
    | here hform => exact mem_postorderAll.mpr ⟨_, hform, mem_postorder.mpr (Or.inl rfl)⟩
    | deeper hparent _ ih =>
      exact mem_postorderAll.mpr ⟨_, hparent, mem_postorder.mpr (Or.inr ih)⟩

/-- What is inside a form is inside whatever the form is inside. -/
theorem Inside.trans (hother : Inside other form.members) (hform : Inside form forms) :
    Inside other forms := by
  induction hform with
  | here hform => exact .deeper hform hother
  | deeper hparent _ ih => exact .deeper hparent ih

/-! ### The order of the closing parentheses -/

/-- The byte behind the closing parenthesis of a form. -/
def stop? (form : Form) : Option Nat :=
  form.span?.map Span.stop

/-- **Post-order is the order of the closing parentheses**: these are met among the lexemes in the order
in which their forms come in post-order. -/
theorem ReadOff.sublist_stops (h : ReadOff forms lexemes) :
    ((postorderAll forms).filterMap stop?).Sublist (lexemes.map fun item => item.span.stop) := by
  induction h with
  | nil => exact List.Sublist.refl _
  | word hword hrest ih => exact ih.cons _
  | @parenthesis head members forms opening closing heading inside rest hhead hmembers hrest
      ihMembers ihRest =>
    have hspan := span?_parenthesised head members ⟨opening.start, closing.stop⟩
    have hstop : stop? (parenthesised head members ⟨opening.start, closing.stop⟩) =
        some closing.stop := by
      rw [stop?, hspan]
      rfl
    rw [postorderAll, postorder_of_span? hspan, members_parenthesised]
    simp only [List.filterMap_append, List.filterMap_cons_some hstop, List.filterMap_nil,
      List.map_cons, List.map_append, List.append_assoc]
    refine List.Sublist.cons _ (List.Sublist.trans ?_ (List.sublist_append_right _ _))
    exact ihMembers.append (ihRest.cons_cons closing.stop)

/-- A form that comes before another one in post-order is closed before it. -/
theorem ReadOff.pairwise_stops (h : ReadOff forms lexemes) (hordered : Ordered lexemes) :
    (postorderAll forms).Pairwise fun left right =>
      ∀ stop ∈ left.stop?, ∀ stop' ∈ right.stop?, stop < stop' := by
  have hlexemes : (lexemes.map fun item => item.span.stop).Pairwise (· < ·) := by
    refine List.pairwise_map.mpr (hordered.pairwise.imp_of_mem fun _ hright hbehind => ?_)
    exact Nat.lt_of_le_of_lt hbehind (hordered.start_lt _ hright)
  exact List.pairwise_filterMap.mp (hlexemes.sublist h.sublist_stops)

/-- What is inside a form is closed before it. -/
theorem ReadOff.stop_lt_of_inside (h : ReadOff forms lexemes) (hordered : Ordered lexemes)
    (hform : Inside form forms) (hspan : form.span? = some span) (hother : Inside other form.members)
    (hinner : other.span? = some inner) : inner.stop < span.stop := by
  obtain ⟨left, middle, right, rfl, hmiddle⟩ := h.of_inside hform
  have hpart : middle.Sublist (left ++ (middle ++ right)) :=
    (List.sublist_append_left middle right).trans (List.sublist_append_right left _)
  have hpairwise := hmiddle.pairwise_stops (hordered.sublist hpart)
  rw [postorderAll, postorderAll, List.append_nil, postorder_of_span? hspan,
    List.pairwise_append] at hpairwise
  refine hpairwise.2.2 other (mem_postorderAll_iff_inside.mpr hother) form (List.mem_singleton_self _)
    inner.stop ?_ span.stop ?_
  · rw [stop?, hinner]
    rfl
  · rw [stop?, hspan]
    rfl

/-- **What is closed before the first faulty form is without a fault.** -/
theorem ReadOff.exists_first_fault (h : ReadOff forms lexemes) (hordered : Ordered lexemes)
    (hfirst : (postorderAll forms).findSome? arityFault? = some fault) :
    ∃ form span, Inside form forms ∧ form.span? = some span ∧ form.arityFault? = some fault ∧
      ∀ other, Inside other forms → ∀ inner, other.span? = some inner → inner.stop ≤ span.stop →
        inner ≠ span → other.arityFault? = none := by
  obtain ⟨before, form, after, hforms, hform, hbefore⟩ := List.findSome?_eq_some_iff.mp hfirst
  obtain ⟨span, hspan⟩ := (misshapen_of_arityFault? hform).exists_span
  refine ⟨form, span, mem_postorderAll_iff_inside.mp (by simp [hforms]), hspan, hform, ?_⟩
  intro other hother inner hinner hstop hne
  have hpairwise := h.pairwise_stops hordered
  rw [hforms, List.pairwise_append, List.pairwise_cons] at hpairwise
  rw [← mem_postorderAll_iff_inside, hforms, List.mem_append, List.mem_cons] at hother
  rcases hother with hother | rfl | hother
  · exact hbefore other hother
  · cases hspan.symm.trans hinner
    exact absurd rfl hne
  · have hlater := hpairwise.2.1.1 other hother span.stop (by simp [stop?, hspan]) inner.stop
      (by simp [stop?, hinner])
    exact absurd hlater (Nat.not_lt.mpr hstop)

/-- If everything that is closed before a form is without a fault, so is everything inside the form. -/
theorem ReadOff.findSome?_members (h : ReadOff forms lexemes) (hordered : Ordered lexemes)
    (hform : Inside form forms) (hspan : form.span? = some span)
    (hearlier : ∀ other, Inside other forms → ∀ inner, other.span? = some inner →
      inner.stop < span.stop → other.arityFault? = none) :
    (postorderAll form.members).findSome? arityFault? = none := by
  refine List.findSome?_eq_none_iff.mpr fun other hother => ?_
  rw [mem_postorderAll_iff_inside] at hother
  cases hinner : other.span? with
  | none => exact arityFault?_eq_none hinner
  | some inner =>
    have hstop := h.stop_lt_of_inside hordered hform hspan hother hinner
    exact hearlier other (hother.trans hform) inner hinner hstop

/-! ### A form by itself -/

/-- With nothing wrong inside a form, its first fault is its own. -/
theorem findSome?_postorder (hspan : form.span? = some span)
    (hmembers : (postorderAll form.members).findSome? arityFault? = none) :
    (postorderAll [form]).findSome? arityFault? = form.arityFault? := by
  rw [postorderAll, postorderAll, List.append_nil, postorder_of_span? hspan,
    findSome?_append_of_eq_none hmembers, List.findSome?_singleton]

/-- The text of a form at any depth is read as the form, moved to the front. -/
theorem exists_slice_of_inside {source : String} (h : parse source = .ok forms)
    (hform : Inside form forms) (hspan : form.span? = some span) :
    ∃ slice node, span.Covers source slice ∧ parse slice = .ok [node] ∧
      node.shift span.start = form := by
  obtain ⟨left, middle, right, hscan, hmiddle⟩ := (readOff_of_read h).of_inside hform
  obtain ⟨text, node, hslice⟩ := hmiddle.exists_slice hscan hspan
  exact ⟨"(" ++ text ++ ")", node, hslice⟩

end Form

namespace Program

open Form

variable {source slice : String} {form node : Form} {fault : Fault} {span : Span}

/-- If a source can be read and does not compile, its fault is the first in post-order. -/
theorem first_fault_of_compile {forms : List Form} (hparse : parse source = .ok forms)
    (h : compile source = .error fault) :
    (postorderAll forms).findSome? arityFault? = some fault := by
  rw [compile_eq, hparse] at h
  have hagrees := Term.agrees_ofForms forms
  cases hterms : Term.ofForms forms with
  | ok terms => simp [hterms, Except.map] at h
  | error found =>
    obtain rfl : found = fault := by simpa [hterms, Except.map] using h
    rwa [hterms] at hagrees

/-- A source with a fault of arity is read, and the fault is the first in post-order. -/
theorem exists_parse_of_isArity (h : compile source = .error fault) (harity : fault.isArity) :
    ∃ forms, parse source = .ok forms ∧
      (postorderAll forms).findSome? arityFault? = some fault := by
  cases hparse : parse source with
  | error found =>
    rw [compile, hparse] at h
    cases h
    cases (isArity_of_read hparse).symm.trans harity
  | ok forms => exact ⟨forms, rfl, first_fault_of_compile hparse h⟩

/-- Any other fault of a source is one of reading it. -/
theorem parse_of_not_isArity (h : compile source = .error fault) (hplace : fault.isArity = false) :
    parse source = .error fault := by
  cases hparse : parse source with
  | error found =>
    rw [compile, hparse] at h
    cases h
    rfl
  | ok forms =>
    obtain ⟨form, -, hform⟩ := List.exists_of_findSome?_eq_some (first_fault_of_compile hparse h)
    cases hplace.symm.trans (misshapen_of_arityFault? hform).isArity

/-- **Compiling is local**: the outcome for the text of a form is that for the form, moved. -/
theorem compile_slice (hparse : parse slice = .ok [node]) (hnode : node.shift span.start = form) :
    (compile slice).mapError (Fault.shift span.start) = (Term.ofForms [form]).map Program.mk := by
  have hshift := Term.ofForms_shift span.start [node]
  rw [List.map_singleton, hnode] at hshift
  rw [hshift, compile, hparse]
  simp only [ofForms_eq]
  cases Term.ofForms [node] <;> rfl

/-- The text of a form with a fault of its own, and none inside, has the same fault. -/
theorem compile_slice_error (hparse : parse slice = .ok [node])
    (hnode : node.shift span.start = form) (hspan : fault.span? = some span) (harity : fault.isArity)
    (hfirst : (postorderAll [form]).findSome? arityFault? = some fault) :
    compile slice = .error (fault.relocate fun _ => ⟨0, span.size⟩) := by
  have hslice := compile_slice hparse hnode
  rw [(Term.agrees_ofForms [form]).eq_error hfirst] at hslice
  cases hcompile : compile slice with
  | ok program =>
    rw [hcompile] at hslice
    cases hslice
  | error own =>
    rw [hcompile] at hslice
    rw [Fault.eq_relocate_of_shift harity hspan (Except.error.inj hslice)]

/-- The text of a form without a fault compiles. -/
theorem compile_slice_ok (hparse : parse slice = .ok [node]) (hnode : node.shift span.start = form)
    (hnone : (postorderAll [form]).findSome? arityFault? = none) :
    ∃ program, compile slice = .ok program := by
  obtain ⟨terms, hterms, -⟩ := (Term.agrees_ofForms [form]).exists_ok hnone
  have hslice := compile_slice hparse hnode
  rw [hterms] at hslice
  cases hcompile : compile slice with
  | ok program => exact ⟨program, rfl⟩
  | error own =>
    rw [hcompile] at hslice
    cases hslice

/-- **The stretch of a fault of arity is a minimal source with this fault.** If a source does not compile
because of a fault of arity, this fault is about a form of the source, with the number of members that
the form really has; the text of the form does not compile either, because of the same fault, which
there is about the whole text; and the text of every other form that is closed no later, those inside
the faulty one among them, compiles. -/
theorem compile_arity_stretch (h : compile source = .error fault) (harity : fault.isArity) :
    ∃ forms form span, parse source = .ok forms ∧ Inside form forms ∧ form.span? = some span ∧
      fault.span? = some span ∧ form.Misshapen fault ∧
      (∃ slice, span.Covers source slice ∧
        compile slice = .error (fault.relocate fun _ => ⟨0, span.size⟩)) ∧
      ∀ other, Inside other forms → ∀ inner, other.span? = some inner →
        inner.stop ≤ span.stop → inner ≠ span →
          ∃ slice program, inner.Covers source slice ∧ compile slice = .ok program := by
  obtain ⟨forms, hparse, hfirst⟩ := exists_parse_of_isArity h harity
  have hread : ReadOff forms (Token.scan source) := readOff_of_read hparse
  have hordered := ordered_scan source
  obtain ⟨form, span, hform, hspan, hfault, hothers⟩ := hread.exists_first_fault hordered hfirst
  have hmisshapen := misshapen_of_arityFault? hfault
  have hplace : fault.span? = some span := hmisshapen.span?_eq.symm.trans hspan
  -- A form that is closed earlier is another form.
  have hearlier : ∀ other, Inside other forms → ∀ inner, other.span? = some inner →
      inner.stop < span.stop → other.arityFault? = none := by
    intro other hother inner hinner hstop
    refine hothers other hother inner hinner (Nat.le_of_lt hstop) fun heq => ?_
    exact Nat.ne_of_lt hstop (congrArg Span.stop heq)
  refine ⟨forms, form, span, hparse, hform, hspan, hplace, hmisshapen, ?_, ?_⟩
  · obtain ⟨slice, node, hcovers, hslice, hnode⟩ := exists_slice_of_inside hparse hform hspan
    refine ⟨slice, hcovers, compile_slice_error hslice hnode hplace harity ?_⟩
    rw [findSome?_postorder hspan (hread.findSome?_members hordered hform hspan hearlier), hfault]
  · intro other hother inner hinner hstop hne
    obtain ⟨slice, node, hcovers, hslice, hnode⟩ := exists_slice_of_inside hparse hother hinner
    have hmembers := hread.findSome?_members hordered hother hinner fun deeper hdeeper within hwithin
      hlt => hearlier deeper hdeeper within hwithin (Nat.lt_of_lt_of_le hlt hstop)
    have hnone : (postorderAll [other]).findSome? arityFault? = none := by
      rw [findSome?_postorder hinner hmembers, hothers other hother inner hinner hstop hne]
    obtain ⟨program, hprogram⟩ := compile_slice_ok hslice hnode hnone
    exact ⟨slice, program, hcovers, hprogram⟩

/-- Of three faulty forms, one inside another and the third behind both, the inner one is reported. It
has three members, of which one is a sound form. -/
theorem compile_arity_stretch_nested :
    compile "(é (f (λ x x) y) z) (g)" = .error (.applicationArity 3 ⟨4, 18⟩) ∧
    (Fault.applicationArity 3 ⟨4, 18⟩).isArity ∧
    ∃ forms form span, parse "(é (f (λ x x) y) z) (g)" = .ok forms ∧ Inside form forms ∧
      form.span? = some span ∧ (Fault.applicationArity 3 ⟨4, 18⟩).span? = some span ∧
      form.Misshapen (.applicationArity 3 ⟨4, 18⟩) ∧
      (∃ slice, span.Covers "(é (f (λ x x) y) z) (g)" slice ∧
        compile slice = .error (.applicationArity 3 ⟨0, span.size⟩)) ∧
      ∀ other, Inside other forms → ∀ inner, other.span? = some inner →
        inner.stop ≤ span.stop → inner ≠ span →
          ∃ slice program, inner.Covers "(é (f (λ x x) y) z) (g)" slice ∧
            compile slice = .ok program := by
  have h : compile "(é (f (λ x x) y) z) (g)" = .error (.applicationArity 3 ⟨4, 18⟩) := by
    rw [compile_eq]
    rfl
  exact ⟨h, rfl, compile_arity_stretch h rfl⟩

end Program

end ParenLambda
