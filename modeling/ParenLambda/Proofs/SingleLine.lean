import ParenLambda.Proofs.Labels

/-!
# Labels within a line

A report shows a label within one line by carets, and a label over several lines by a bracket along
them. Lines are counted by the line feeds in front of a place (`ParenLambda.Report.number_lineAt`), so
the two ends of a label are on one line exactly if the label covers no line feed.

A fault at a single place labels at most one character. This is the first character of a token, and so
no line feed, but for one fault: where the tokens end behind an introducer, the label covers the
character behind the introducer, whatever it is. If the line ends there it is the line feed, and the
report of a fault at a single place is one with a bracket over two lines.
-/

namespace ParenLambda

/-! ### The number of a line -/

namespace Report

/-- The first of the lines from a byte on is the one that has been begun; the others start behind this
byte. -/
theorem linesFrom_eq_cons (number start : Nat) (reversed : List Char) (position : Nat)
    (text : List Char) :
    ∃ first rest, linesFrom number start reversed position text = ⟨number, start, first⟩ :: rest ∧
      ∀ line ∈ rest, position < line.start := by
  induction text generalizing number start reversed position with
  | nil => exact ⟨_, [], rfl, List.forall_mem_nil _⟩
  | cons c text ih =>
    rw [linesFrom]
    split
    · -- The line feed ends the first line, and the next one starts right behind it.
      obtain ⟨second, rest, hrest, hlater⟩ := ih (number + 1) (position + 1) [] (position + 1)
      refine ⟨_, _, rfl, ?_⟩
      rw [hrest]
      intro line hline
      rcases List.mem_cons.mp hline with rfl | hline
      · exact Nat.lt_succ_self position
      · exact Nat.lt_of_succ_lt (hlater line hline)
    · obtain ⟨first, rest, hrest, hlater⟩ := ih number start (c :: reversed) (position + c.utf8Size)
      refine ⟨first, rest, hrest, fun line hline => ?_⟩
      exact Nat.lt_of_le_of_lt (Nat.le_add_right _ _) (hlater line hline)

/-- **Lines are counted by the line feeds in front of a place**: by induction on what stands in front of
it, since a line feed there begins a line that does not start behind the place. -/
theorem exists_last_line (number start : Nat) (reversed : List Char) (position : Nat)
    (before after : List Char) (h : start ≤ position) :
    ∃ line, ((linesFrom number start reversed position (before ++ after)).filter fun line =>
        decide (line.start ≤ position + Text.byteSize before)).getLast? = some line ∧
      line.number = number + before.count '\n' := by
  induction before generalizing number start reversed position with
  | nil =>
    obtain ⟨first, rest, hlines, hlater⟩ := linesFrom_eq_cons number start reversed position after
    have hrest : rest.filter (fun line => decide (line.start ≤ position)) = [] := by
      rw [List.filter_eq_nil_iff]
      intro line hline
      simpa using hlater line hline
    refine ⟨⟨number, start, first⟩, ?_, rfl⟩
    rw [List.nil_append, hlines, Text.byteSize_nil, Nat.add_zero, List.filter_cons, hrest,
      if_pos (decide_eq_true h), List.getLast?_singleton]
  | cons c before ih =>
    have hplace : position + Text.byteSize (c :: before) =
        position + c.utf8Size + Text.byteSize before := by
      rw [Text.byteSize_cons, Nat.add_assoc]
    rw [hplace, List.cons_append, linesFrom]
    split
    · next hc =>
      subst hc
      obtain ⟨line, hline, hnumber⟩ := ih (number + 1) (position + 1) [] (position + 1) (Nat.le_refl _)
      have hfirst : start ≤ position + '\n'.utf8Size + Text.byteSize before := by omega
      refine ⟨line, ?_, ?_⟩
      · rw [List.filter_cons, if_pos (decide_eq_true hfirst), List.getLast?_cons]
        exact congrArg (fun last => some (Option.getD last _)) hline
      · rw [hnumber, List.count_cons_self]
        omega
    · next hc =>
      obtain ⟨line, hline, hnumber⟩ := ih number start (c :: reversed) (position + c.utf8Size)
        (Nat.le_add_right_of_le h)
      exact ⟨line, hline, hnumber.trans (by rw [List.count_cons_of_ne hc])⟩

theorem number_lineAt (before after : List Char) :
    (lineAt (lines (before ++ after)) (Text.byteSize before)).number = 1 + before.count '\n' := by
  obtain ⟨line, hline, hnumber⟩ := exists_last_line 1 0 [] 0 before after (Nat.le_refl 0)
  rw [Nat.zero_add] at hline
  rw [lineAt, lines, hline]
  exact hnumber

/-- **A stretch is within a line exactly if it covers no line feed.** -/
theorem number_lineAt_eq_iff {source slice : String} {span : Span} (h : span.Covers source slice) :
    (lineAt (lines source.toList) span.start).number =
      (lineAt (lines source.toList) span.stop).number ↔ '\n' ∉ slice.toList := by
  obtain ⟨before, after, rfl, rfl⟩ := h
  have hstart := number_lineAt before.toList (slice.toList ++ after.toList)
  have hstop := number_lineAt (before.toList ++ slice.toList) after.toList
  rw [← String.toList_append, Text.byteSize_toList] at hstop
  rw [Text.byteSize_toList, ← List.append_assoc] at hstart
  simp only [String.toList_append] at hstart hstop ⊢
  rw [hstart, hstop, List.count_append, ← List.count_eq_zero]
  omega

end Report

/-! ### Line feeds in a label -/

/-- What is left of a text behind some of its characters depends on their size only. -/
theorem Text.append_inj_of_byteSize {before before' after after' : List Char}
    (h : before ++ after = before' ++ after') (hsize : byteSize before = byteSize before') :
    before = before' ∧ after = after' := by
  have hafter : some after = some after' := by
    rw [← dropBytes?_append before after, ← dropBytes?_append before' after', h, hsize]
  obtain rfl := Option.some.inj hafter
  exact ⟨List.append_cancel_right h, rfl⟩

/-- A stretch of a source covers one text only. -/
theorem Span.Covers.unique {source slice other : String} {span : Span} (h : span.Covers source slice)
    (hother : span.Covers source other) : slice = other := by
  obtain ⟨before, after, rfl, rfl⟩ := h
  obtain ⟨before', after', hsource, hspan⟩ := hother
  obtain ⟨hstart, hstop⟩ := Span.mk.inj hspan
  have hchars := congrArg String.toList hsource
  simp only [String.toList_append, List.append_assoc, ← Text.byteSize_toList] at hchars hstart hstop
  obtain ⟨-, hrest⟩ := Text.append_inj_of_byteSize hchars hstart
  have hsize : Text.byteSize slice.toList = Text.byteSize other.toList := by
    simp only [Text.byteSize_append] at hstop
    omega
  exact String.toList_inj.mp (Text.append_inj_of_byteSize hrest hsize).1

/-- **A name is missing at the end of a line**: an introducer is the last token of the source, and a
line feed stands right behind it. -/
def Fault.EndsLine (source : String) (fault : Fault) : Prop :=
  ∃ kind before introducer front back,
    fault = .missingName kind Form.endOfInput introducer.span.stop ∧
      Token.scan source = before ++ [introducer] ∧ introducer.token = .introducer kind ∧
      source.toList = front ++ '\n' :: back ∧ introducer.span.stop = Text.byteSize front

theorem Token.lineFeed_ne {c : Char} (h : Fragment.isParenthesis c ∨ Fragment.isOrdinary c) :
    '\n' ≠ c := by
  rintro rfl
  revert h
  decide

/-- **What a fault of reading is about has a line feed exactly if a name is missing at the end of a
line.** -/
theorem Form.Offends.lineFeed_mem_iff {source slice : String} {fault : Fault} {start : Nat}
    (h : Offends source fault start slice) (hplace : fault.isArity = false) :
    '\n' ∈ slice.toList ↔ fault.EndsLine source := by
  cases h with
  | form hparse hform hspan hfault hslice hnode => cases hfault <;> cases hplace
  | closing hitem hrejected =>
    constructor
    · intro hmem
      exact absurd hmem (by decide)
    · rintro ⟨kind, before, introducer, front, back, hfault, -⟩
      cases hfault
  | opening hopen =>
    constructor
    · intro hmem
      exact absurd hmem (by decide)
    · rintro ⟨kind, before, introducer, front, back, hfault, -⟩
      cases hfault
  | @token kind before after introducer other c tail hscan hkind hother hcovers =>
    constructor
    · intro hmem
      -- The character is the first one of a token.
      have hitem : other ∈ Token.scan source := by simp [hscan]
      obtain ⟨front, d, rest, back, hsource, hspan, hd, -⟩ := Token.exists_text_of_mem_scan hitem
      rw [hspan] at hcovers
      have hchars := String.ofList_injective (hcovers.unique (Span.covers_of_toList hsource))
      obtain ⟨rfl, -⟩ := List.cons.inj hchars
      exact absurd (by simpa using hmem) (Token.lineFeed_ne hd)
    · rintro ⟨kind', before, introducer, front, back, hfault, -⟩
      exact absurd (Fault.missingName.inj hfault).2.1 (describe_ne_endOfInput hother)
  | @behind kind before introducer front back hscan hkind hsource hstop =>
    constructor
    · intro hmem
      cases back with
      | nil => simp at hmem
      | cons c back =>
        obtain rfl : '\n' = c := by simpa using hmem
        exact ⟨kind, before, introducer, front, back, rfl, hscan, hkind, hsource, hstop⟩
    · rintro ⟨kind', before', introducer', front', back', hfault, -, -, hsource', hstop'⟩
      have hsize : Text.byteSize front = Text.byteSize front' := by
        rw [← hstop, ← hstop']
        exact (Fault.missingName.inj hfault).2.2
      obtain ⟨-, rfl⟩ := Text.append_inj_of_byteSize (hsource.symm.trans hsource') hsize
      simp

/-! ### Labels of faults at a single place -/

namespace Label

/-- **A fault at a single place is shown on one line, unless a name is missing at the end of a line.**
Whatever a user's source is, behind the library or not, the label of a fault that is not one of arity
covers a line feed exactly if an introducer is the last token of the source and a line feed stands right
behind it. Then the line feed is all it covers; and otherwise, and only then, it starts and stops on the
same line. -/
theorem label_single_line {name user : String} {withBase : Bool} {fault : Fault}
    (h : (Assembly.make name user withBase).compile = .error fault) (hplace : fault.isArity = false) :
    ∃ own span slice, Program.compile user = .error own ∧
      fault = own.shift (Assembly.make name user withBase).userStart ∧
      ofFault? (Assembly.make name user withBase) fault = some ⟨name, user, span⟩ ∧
      span.Covers user slice ∧ ('\n' ∈ slice.toList ↔ own.EndsLine user) ∧
      (own.EndsLine user → slice = "\n") ∧
      ((Report.lineAt (Report.lines user.toList) span.start).number =
        (Report.lineAt (Report.lines user.toList) span.stop).number ↔ ¬own.EndsLine user) := by
  obtain ⟨own, hown, rfl⟩ := Assembly.exists_own_fault h
  rw [Fault.isArity_shift] at hplace
  have hparse := Program.parse_of_not_isArity hown hplace
  obtain ⟨span, slice, hlabel, hcovers, hoffends, hlength⟩ := exists_of_parse hparse name
  have hfeed := hoffends.lineFeed_mem_iff hplace
  refine ⟨own, span, slice, hown, rfl, ?_, hcovers, hfeed, ?_, ?_⟩
  · rw [ofFault?_behind]
    exact hlabel
  · intro hends
    obtain ⟨c, hc⟩ := List.length_eq_one_iff.mp
      (Nat.le_antisymm hlength (List.length_pos_of_mem (hfeed.mpr hends)))
    have hmem := hfeed.mpr hends
    rw [hc, List.mem_singleton] at hmem
    rw [← hmem] at hc
    exact String.toList_inj.mp hc
  · rw [Report.number_lineAt_eq_iff hcovers, hfeed]

/-- A parenthesis on the line behind that of an introducer: it is labelled on its own line. -/
theorem label_single_line_closing :
    (Assembly.make "main.sel" "(λ\n)" false).compile = .error (.missingName .abstraction "')'" 4) ∧
    (Fault.missingName .abstraction "')'" 4).isArity = false ∧
    ∃ span slice, ofFault? (Assembly.make "main.sel" "(λ\n)" false)
        (.missingName .abstraction "')'" 4) = some ⟨"main.sel", "(λ\n)", span⟩ ∧
      span.Covers "(λ\n)" slice ∧ '\n' ∉ slice.toList ∧
      (Report.lineAt (Report.lines "(λ\n)".toList) span.start).number =
        (Report.lineAt (Report.lines "(λ\n)".toList) span.stop).number := by
  have h : (Assembly.make "main.sel" "(λ\n)" false).compile =
      .error (.missingName .abstraction "')'" 4) := by
    rw [Assembly.compile_alone, Program.compile_eq]
    rfl
  obtain ⟨own, span, slice, hown, -, hlabel, hcovers, hfeed, -, hline⟩ := label_single_line h rfl
  have hends : ¬own.EndsLine "(λ\n)" := by
    rintro ⟨kind, before, introducer, front, back, rfl, -⟩
    rw [← Assembly.compile_alone "main.sel", h] at hown
    exact absurd (Fault.missingName.inj (Except.error.inj hown)).2.1 (by decide)
  exact ⟨h, rfl, span, slice, hlabel, hcovers, mt hfeed.mp hends, hline.mpr hends⟩

/-- **A line feed can be labelled.** A source that ends with a line feed behind an introducer has a
fault at a single place whose label starts on one line and stops on the next, and a report with a
bracket over both. -/
theorem lineFeed_labelled :
    (Assembly.make "main.sel" "(λ\n" false).compile =
        .error (.missingName .abstraction Form.endOfInput 3) ∧
      ofFault? (Assembly.make "main.sel" "(λ\n" false)
          (.missingName .abstraction Form.endOfInput 3) = some ⟨"main.sel", "(λ\n", ⟨3, 4⟩⟩ ∧
      Span.Covers "(λ\n" ⟨3, 4⟩ "\n" ∧
      (Report.lineAt (Report.lines "(λ\n".toList) 3).number = 1 ∧
      (Report.lineAt (Report.lines "(λ\n".toList) 4).number = 2 ∧
      Report.write false (Assembly.make "main.sel" "(λ\n" false)
          (.missingName .abstraction Form.endOfInput 3) =
        "error: 'λ' must be followed by a name, found end of input\n" ++
          "  ┌─ main.sel:1:3\n  │  \n1 │   (λ\n  │ ╭──^\n2 │ │ \n  │ ╰^\n\n" := by
  have h : (Assembly.make "main.sel" "(λ\n" false).compile =
      .error (.missingName .abstraction Form.endOfInput 3) := by
    rw [Assembly.compile_alone, Program.compile_eq]
    rfl
  refine ⟨h, rfl, ⟨"(λ", "", rfl, rfl⟩, ?_, ?_, ?_⟩
  · decide
  · decide
  · decide +kernel

end Label

end ParenLambda
