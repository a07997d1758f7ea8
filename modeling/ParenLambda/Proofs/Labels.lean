import ParenLambda.Proofs.Assembly
import ParenLambda.Proofs.Reading.Earliest
import ParenLambda.Proofs.Reproduction

/-!
# Labels point at the offending text

A report points at a stretch of the user's file. Which text that is depends on the fault
(`ParenLambda.Form.Offends`): all of a form that has the wrong number of members, a parenthesis that has
no partner, the first character of a token that stands in the place of a name, or the character behind
an introducer that nothing follows, if there is one.

Places are found by reading, which counts the bytes of the assembled text. The library in front of the
user's source only moves them (`ParenLambda.Assembly.exists_own_fault`), and labels move them back. What
remains is the user's source by itself, where a place is the number of bytes in front of it. So a label
is known from two facts about each fault: **what stands in front of it** and, for a fault at a single
place, **the character that comes next** (`ParenLambda.Label.ofSpan_point`).
-/

namespace ParenLambda

/-! ### Stretches of characters -/

/-- Some characters of a source are covered by a stretch of it. -/
theorem Span.covers_of_toList {source : String} {before text after : List Char}
    (h : source.toList = before ++ (text ++ after)) :
    Covers source ⟨Text.byteSize before, Text.byteSize (before ++ text)⟩ (String.ofList text) := by
  refine ⟨String.ofList before, String.ofList after, ?_, ?_⟩
  · rw [← String.ofList_append, ← String.ofList_append, List.append_assoc, ← h, String.ofList_toList]
  · rw [← String.ofList_append, ← Text.byteSize_eq_utf8ByteSize, ← Text.byteSize_eq_utf8ByteSize]

/-- What a stretch of a source covers is covered further right behind another text. -/
theorem Span.Covers.shift {source slice : String} {span : Span} (h : span.Covers source slice)
    (lead : String) : (span.shift lead.utf8ByteSize).Covers (lead ++ source) slice := by
  obtain ⟨before, after, rfl, rfl⟩ := h
  refine ⟨lead ++ before, after, ?_, ?_⟩
  · simp only [String.append_assoc]
  · simp only [Span.shift, String.utf8ByteSize_append, Span.mk.injEq]
    omega

/-- **A token of a source stands for some characters of it**, of which the first is a parenthesis or
ordinary. -/
theorem Token.exists_text_of_mem_scan {source : String} {item : Lexeme} (h : item ∈ scan source) :
    ∃ before c tail after, source.toList = before ++ (c :: tail ++ after) ∧
      item.span = ⟨Text.byteSize before, Text.byteSize (before ++ c :: tail)⟩ ∧
      (Fragment.isParenthesis c ∨ Fragment.isOrdinary c) ∧
      Denotes after.head? (c :: tail) item.token := by
  obtain ⟨before, text, after, hsource, -, hfragment, hspan, hdenotes⟩ := mem_scan_iff.mp h
  obtain ⟨c, tail, rfl, hc⟩ := hfragment.eq_cons
  exact ⟨before, c, tail, after, hsource.trans (List.append_assoc _ _ _), hspan, hc, hdenotes⟩

theorem Token.Denotes.eq_opening {behind : Option Char} {text : List Char}
    (h : Denotes behind text .opening) : text = ['('] := by
  cases h
  rfl

theorem Token.Denotes.eq_closing {behind : Option Char} {text : List Char}
    (h : Denotes behind text .closing) : text = [')'] := by
  cases h
  rfl

/-! ### Labels in the user's source -/

namespace Label

variable {name source slice : String} {span : Span}

theorem ofSpan_alone (name source : String) (span : Span) :
    ofSpan ⟨name, "", source⟩ span = ⟨name, source, ⟨span.start,
      if span.size = 0 then characterEnd source.toList span.start
      else min (span.start + span.size) source.utf8ByteSize⟩⟩ := by
  have hplace : Assembly.locate ⟨name, "", source⟩ span.start = ⟨name, source, span.start⟩ :=
    if_pos (Nat.zero_le _)
  simp only [ofSpan, hplace]

/-- **A text that is not empty is labelled as it stands.** -/
theorem ofSpan_of_covers (h : span.Covers source slice) (hne : slice ≠ "") :
    ofSpan ⟨name, "", source⟩ span = ⟨name, source, span⟩ := by
  have hpositive : slice.utf8ByteSize ≠ 0 := fun hzero => hne (String.utf8ByteSize_eq_zero_iff.mp hzero)
  have hstop := h.stop_eq
  have hsize : span.size = slice.utf8ByteSize := by
    rw [Span.size, hstop, Nat.add_sub_cancel_left]
  have hfits : span.start + span.size ≤ source.utf8ByteSize := by
    rw [hsize, ← hstop]
    exact h.stop_le
  rw [ofSpan_alone, if_neg (hsize ▸ hpositive), Nat.min_eq_left hfits, hsize, ← hstop]

/-- **At a single place the character is labelled that comes next**, if there is one. -/
theorem ofSpan_point {before after : List Char} (h : source.toList = before ++ after) :
    ofSpan ⟨name, "", source⟩ (.point (Text.byteSize before)) =
      ⟨name, source, ⟨Text.byteSize before, Text.byteSize (before ++ after.take 1)⟩⟩ := by
  have hsize : (Span.point (Text.byteSize before)).size = 0 := Nat.sub_self _
  have hend : characterEnd source.toList (Text.byteSize before) =
      Text.byteSize (before ++ after.take 1) := by
    rw [characterEnd, h, Text.dropBytes?_append]
    cases after with
    | nil => simp
    | cons c after => simp
  rw [ofSpan_alone, if_pos hsize]
  exact congrArg (fun stop => (⟨name, source, ⟨_, stop⟩⟩ : Label)) hend

end Label

/-! ### The offending text -/

namespace Form

/-- **The text that a fault is about**, in the source that has the fault, and the byte where this text
starts. -/
inductive Offends (source : String) : Fault → Nat → String → Prop
  /-- All of a form that has the wrong number of members, from its opening parenthesis to the closing
  one that goes with it. -/
  | form {fault : Fault} {forms : List Form} {form node : Form} {span : Span} {text : String}
      (hparse : parse source = .ok forms) (hform : Inside form forms)
      (hspan : form.span? = some span) (hfault : form.Misshapen fault)
      (hslice : parse ("(" ++ text ++ ")") = .ok [node]) (hnode : node.shift span.start = form) :
      Offends source fault span.start ("(" ++ text ++ ")")
  /-- A closing parenthesis that closes nothing. -/
  | closing {span : Span} (hitem : ⟨.closing, span⟩ ∈ Token.scan source)
      (hrejected : RejectedAt (Token.scan source) (.unexpectedClosing span.start) span.start) :
      Offends source (.unexpectedClosing span.start) span.start ")"
  /-- The last opening parenthesis that is still open. -/
  | opening {offset : Nat} (hopen : LastOpenAt (Token.scan source) offset) :
      Offends source (.unclosedOpening offset) offset "("
  /-- The first character of the token that stands in the place of a name. -/
  | token {kind : Introducer} {before after : List Lexeme} {introducer other : Lexeme} {c : Char}
      {tail : List Char} (hscan : Token.scan source = before ++ introducer :: other :: after)
      (hkind : introducer.token = .introducer kind) (hother : ∀ name, other.token ≠ .atom name)
      (hcovers : other.span.Covers source (String.ofList (c :: tail))) :
      Offends source (.missingName kind other.token.describe other.span.start) other.span.start
        (String.singleton c)
  /-- The character behind the introducer that the source ends with, but for blanks and comments; or
  nothing, if the source ends there. -/
  | behind {kind : Introducer} {before : List Lexeme} {introducer : Lexeme} {front back : List Char}
      (hscan : Token.scan source = before ++ [introducer])
      (hkind : introducer.token = .introducer kind) (hsource : source.toList = front ++ back)
      (hstop : introducer.span.stop = Text.byteSize front) :
      Offends source (.missingName kind endOfInput introducer.span.stop) introducer.span.stop
        (String.ofList (back.take 1))

variable {source : String} {fault : Fault} {forms : List Form}

/-- **A fault at a single place**, which is about the character that comes next there, if there is one. -/
def OffendsNext (source : String) (fault : Fault) : Prop :=
  ∃ before after, source.toList = before ++ after ∧
    fault.span? = some (.point (Text.byteSize before)) ∧
    Offends source fault (Text.byteSize before) (String.ofList (after.take 1))

theorem offendsNext_opening {offset : Nat} (hopen : LastOpenAt (Token.scan source) offset) :
    OffendsNext source (.unclosedOpening offset) := by
  obtain ⟨left, span, right, hscan, rfl, -⟩ := id hopen
  have hitem : (⟨.opening, span⟩ : Lexeme) ∈ Token.scan source := by simp [hscan]
  obtain ⟨before, c, tail, after, hsource, rfl, -, hdenotes⟩ := Token.exists_text_of_mem_scan hitem
  obtain ⟨rfl, rfl⟩ := List.cons.inj hdenotes.eq_opening
  exact ⟨before, _, hsource, rfl, .opening hopen⟩

theorem offendsNext_closing {span : Span} (hitem : ⟨.closing, span⟩ ∈ Token.scan source)
    (hrejected : RejectedAt (Token.scan source) (.unexpectedClosing span.start) span.start) :
    OffendsNext source (.unexpectedClosing span.start) := by
  obtain ⟨before, c, tail, after, hsource, rfl, -, hdenotes⟩ := Token.exists_text_of_mem_scan hitem
  obtain ⟨rfl, rfl⟩ := List.cons.inj hdenotes.eq_closing
  exact ⟨before, _, hsource, rfl, .closing hitem hrejected⟩

theorem offendsNext_token {kind : Introducer} {left right : List Lexeme} {introducer other : Lexeme}
    (hscan : Token.scan source = left ++ introducer :: other :: right)
    (hkind : introducer.token = .introducer kind) (hother : ∀ name, other.token ≠ .atom name) :
    OffendsNext source (.missingName kind other.token.describe other.span.start) := by
  have hitem : other ∈ Token.scan source := by simp [hscan]
  obtain ⟨before, c, tail, after, hsource, hspan, -, -⟩ := Token.exists_text_of_mem_scan hitem
  have hcovers := Span.covers_of_toList hsource
  have hstart : other.span.start = Text.byteSize before := congrArg Span.start hspan
  rw [← hspan] at hcovers
  refine ⟨before, _, hsource, ?_, ?_⟩
  · rw [Fault.span?, hstart]
  · rw [← hstart]
    exact .token hscan hkind hother hcovers

theorem offendsNext_behind {kind : Introducer} {left : List Lexeme} {introducer : Lexeme}
    (hscan : Token.scan source = left ++ [introducer])
    (hkind : introducer.token = .introducer kind) :
    OffendsNext source (.missingName kind endOfInput introducer.span.stop) := by
  have hitem : introducer ∈ Token.scan source := by simp [hscan]
  obtain ⟨before, c, tail, after, hsource, hspan, -, -⟩ := Token.exists_text_of_mem_scan hitem
  have hstop : introducer.span.stop = Text.byteSize (before ++ c :: tail) := congrArg Span.stop hspan
  rw [← List.append_assoc] at hsource
  refine ⟨_, after, hsource, ?_, ?_⟩
  · rw [Fault.span?, hstop]
  · rw [← hstop]
    exact .behind hscan hkind hsource hstop

/-- **Every fault of reading is at a single place**, and about the character that comes next: one case for
each way in which reading stops. -/
theorem offendsNext_of_parse (h : parse source = .error fault) : OffendsNext source fault := by
  obtain ⟨passed, next, rest, hscan, hpassed, hstops⟩ := exists_passes .empty (Token.scan source)
  change Stops next rest (parse source) at hstops
  rw [h] at hstops
  generalize hresult : Except.error fault = result at hstops
  cases hstops with
  | finish =>
    obtain ⟨pending, reversed⟩ := next
    cases pending with
    | nil => cases hresult
    | cons innermost outer =>
      cases hresult
      rw [List.append_nil] at hscan
      rw [← hscan] at hpassed
      exact offendsNext_opening (hpassed.gathered_empty unintroduced_nil).lastOpenAt
  | @unexpected reversed span rest =>
    cases hresult
    have hrejected := hpassed.rejectedAt_closing span rest
    rw [← hscan] at hrejected
    exact offendsNext_closing (by simp [hscan]) hrejected
  | @missing progress kind span inner other rest hother =>
    cases hresult
    have hsplit : Token.scan source =
        (passed ++ [⟨.opening, span⟩]) ++ ⟨.introducer kind, inner⟩ :: other :: rest := by
      simp [hscan]
    exact offendsNext_token hsplit rfl hother
  | @ended progress kind span inner =>
    cases hresult
    have hsplit : Token.scan source =
        (passed ++ [⟨.opening, span⟩]) ++ [⟨.introducer kind, inner⟩] := by
      simp [hscan]
    exact offendsNext_behind hsplit rfl

/-- **A fault of arity is about a whole form**, whose text is parenthesised. -/
theorem exists_offends_of_first_fault (hparse : parse source = .ok forms)
    (hfirst : (postorderAll forms).findSome? arityFault? = some fault) :
    ∃ span text, fault.span? = some span ∧ span.Covers source ("(" ++ text ++ ")") ∧
      Offends source fault span.start ("(" ++ text ++ ")") := by
  have hread : ReadOff forms (Token.scan source) := readOff_of_read hparse
  obtain ⟨form, span, hform, hspan, hfault, -⟩ := hread.exists_first_fault (ordered_scan source) hfirst
  have hmisshapen := misshapen_of_arityFault? hfault
  obtain ⟨left, middle, right, hscan, hmiddle⟩ := hread.of_inside hform
  obtain ⟨text, node, hcovers, hslice, hnode⟩ := hmiddle.exists_slice hscan hspan
  exact ⟨span, text, hmisshapen.span?_eq.symm.trans hspan, hcovers,
    .form hparse hform hspan hmisshapen hslice hnode⟩

end Form

/-! ### Faults behind the library -/

/-- **A fault of an assembled source is a fault of the user's source**, further right. -/
theorem Assembly.exists_own_fault {name user : String} {withBase : Bool} {fault : Fault}
    (h : (make name user withBase).compile = .error fault) :
    ∃ own, Program.compile user = .error own ∧
      fault = own.shift (make name user withBase).userStart := by
  cases withBase with
  | false =>
    rw [compile_alone] at h
    refine ⟨fault, h, ?_⟩
    have hstart : (make name user false).userStart = 0 := rfl
    rw [hstart]
    cases fault <;> rfl
  | true =>
    obtain ⟨own, hown, rfl⟩ := (compile_behind_base_error_iff name user).mp h
    rw [compile_alone] at hown
    exact ⟨own, hown, rfl⟩

theorem Fault.isArity_shift (bytes : Nat) (fault : Fault) :
    (fault.shift bytes).isArity = fault.isArity := by
  cases fault <;> rfl

namespace Label

variable {source : String} {fault : Fault}

/-- The label of a fault of reading covers the offending text, which is one character or none. -/
theorem exists_of_parse (h : Form.parse source = .error fault) (name : String) :
    ∃ span slice, ofFault? ⟨name, "", source⟩ fault = some ⟨name, source, span⟩ ∧
      span.Covers source slice ∧ Form.Offends source fault span.start slice ∧
      slice.toList.length ≤ 1 := by
  obtain ⟨before, after, hsource, hspan, hoffends⟩ := Form.offendsNext_of_parse h
  have hchars : source.toList = before ++ (after.take 1 ++ after.drop 1) := by
    rw [List.take_append_drop, hsource]
  refine ⟨_, _, ?_, Span.covers_of_toList hchars, hoffends, ?_⟩
  · rw [ofFault?, hspan, Option.map_some, ofSpan_point hsource]
  · rw [String.toList_ofList]
    exact List.length_take_le 1 after

/-- **Without the library the label covers the offending text**, and is all that a fault of arity is
about. -/
theorem exists_of_compile (h : Program.compile source = .error fault) (name : String) :
    ∃ span slice, ofFault? ⟨name, "", source⟩ fault = some ⟨name, source, span⟩ ∧
      span.Covers source slice ∧ Form.Offends source fault span.start slice ∧
      (fault.isArity → fault.span? = some span) := by
  cases harity : fault.isArity with
  | false =>
    have hparse := Program.parse_of_not_isArity h harity
    obtain ⟨span, slice, hlabel, hcovers, hoffends, -⟩ := exists_of_parse hparse name
    exact ⟨span, slice, hlabel, hcovers, hoffends, nofun⟩
  | true =>
    obtain ⟨forms, hparse, hfirst⟩ := Program.exists_parse_of_isArity h harity
    obtain ⟨span, text, hspan, hcovers, hoffends⟩ := Form.exists_offends_of_first_fault hparse hfirst
    have hne : "(" ++ text ++ ")" ≠ "" := by
      intro hempty
      have hchars := congrArg String.toList hempty
      simp at hchars
    refine ⟨span, _, ?_, hcovers, hoffends, fun _ => hspan⟩
    rw [ofFault?, hspan, Option.map_some, ofSpan_of_covers hcovers hne]

/-- **The label of a fault points exactly at the offending text.** The base library compiles. Whatever a
user's source is, behind the library or not, each fault found in it has a label, in the user's file; the
label starts and stops between characters of this file, in this order, and covers the text that the
fault is about; and a fault of arity, which is about a stretch of the assembled text, has this very text
there. -/
theorem label_exact :
    (∃ program, Program.compile BaseLibrary.text = .ok program) ∧
    ∀ (name user : String) (withBase : Bool) (fault : Fault),
      (Assembly.make name user withBase).compile = .error fault →
      ∃ own span slice, Program.compile user = .error own ∧
        fault = own.shift (Assembly.make name user withBase).userStart ∧
        ofFault? (Assembly.make name user withBase) fault = some ⟨name, user, span⟩ ∧
        span.start ≤ span.stop ∧ span.stop ≤ user.utf8ByteSize ∧
        (⟨span.start⟩ : String.Pos.Raw).IsValid user ∧ (⟨span.stop⟩ : String.Pos.Raw).IsValid user ∧
        span.Covers user slice ∧ Form.Offends user own span.start slice ∧
        (fault.isArity → ∃ place, fault.span? = some place ∧
          place.Covers (Assembly.make name user withBase).text slice) := by
  refine ⟨BaseLibrary.exists_compile, fun name user withBase fault h => ?_⟩
  obtain ⟨own, hown, rfl⟩ := Assembly.exists_own_fault h
  obtain ⟨span, slice, hlabel, hcovers, hoffends, hspan⟩ := exists_of_compile hown name
  have hordered : span.start ≤ span.stop := by
    rw [hcovers.stop_eq]
    exact Nat.le_add_right _ _
  refine ⟨own, span, slice, hown, rfl, ?_, hordered, hcovers.stop_le, hcovers.isValid.1,
    hcovers.isValid.2, hcovers, hoffends, fun harity => ?_⟩
  · rw [ofFault?_behind]
    exact hlabel
  · rw [Fault.isArity_shift] at harity
    refine ⟨_, ?_, hcovers.shift (Assembly.make name user withBase).lead⟩
    rw [Fault.span?_shift, hspan harity]
    rfl

/-- A word stands where a name is missing, behind a character of two bytes and the library: the first
letter of the word is labelled. -/
theorem label_exact_word :
    (Assembly.make "main.sel" "é (λ let)" true).compile =
        .error (.missingName .abstraction "'let'"
          (7 + (Assembly.make "main.sel" "é (λ let)" true).userStart)) ∧
      ofFault? (Assembly.make "main.sel" "é (λ let)" true)
          (.missingName .abstraction "'let'"
            (7 + (Assembly.make "main.sel" "é (λ let)" true).userStart)) =
        some ⟨"main.sel", "é (λ let)", ⟨7, 8⟩⟩ ∧
      ∃ slice, Span.Covers "é (λ let)" ⟨7, 8⟩ slice ∧
        Form.Offends "é (λ let)" (.missingName .abstraction "'let'" 7) 7 slice := by
  have halone : Program.compile "é (λ let)" = .error (.missingName .abstraction "'let'" 7) := by
    rw [Program.compile_eq]
    rfl
  have hbehind := (Assembly.compile_behind_base_error_iff "main.sel" "é (λ let)").mpr
    ⟨_, (Assembly.compile_alone _ _).trans halone, rfl⟩
  have hplace : ofFault? (Assembly.make "main.sel" "é (λ let)" true)
      (.missingName .abstraction "'let'"
        (7 + (Assembly.make "main.sel" "é (λ let)" true).userStart)) =
      some ⟨"main.sel", "é (λ let)", ⟨7, 8⟩⟩ :=
    ofFault?_behind _ (.missingName .abstraction "'let'" 7)
  obtain ⟨own, span, slice, hown, -, hlabel, -, -, -, -, hcovers, hoffends, -⟩ :=
    label_exact.2 _ _ _ _ hbehind
  obtain rfl : own = _ := Except.error.inj (hown.symm.trans halone)
  obtain rfl : span = ⟨7, 8⟩ := by
    cases hlabel.symm.trans hplace
    rfl
  exact ⟨hbehind, hplace, slice, hcovers, hoffends⟩

end Label

end ParenLambda
