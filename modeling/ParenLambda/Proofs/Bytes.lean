import ParenLambda.Text.Bytes

/-!
# Characters and bytes of a text

Scanning works on the characters of a source and counts their bytes. Here the counts are tied to the
text itself: the bytes of all characters are the bytes of the text, and the place behind some of the
characters is a valid position in it.
-/

namespace ParenLambda

namespace Text

theorem byteSize_eq_utf8ByteSize (text : List Char) :
    byteSize text = (String.ofList text).utf8ByteSize := by
  induction text with
  | nil => rfl
  | cons c text ih =>
    have hsplit : String.ofList (c :: text) = String.singleton c ++ String.ofList text := by
      rw [String.singleton_eq_ofList, ← String.ofList_append]
      rfl
    rw [byteSize_cons, ih, hsplit, String.utf8ByteSize_append, String.utf8ByteSize_singleton]

/-- The bytes of a text are those of its characters. -/
theorem byteSize_toList (text : String) : byteSize text.toList = text.utf8ByteSize := by
  rw [byteSize_eq_utf8ByteSize, String.ofList_toList]

/-- **The place behind some characters of a text is a boundary of the text.** -/
theorem isValid_byteSize {text : String} {before after : List Char}
    (h : text.toList = before ++ after) :
    (⟨byteSize before⟩ : String.Pos.Raw).IsValid text := by
  have hsplit : text = String.ofList before ++ String.ofList after := by
    rw [← String.ofList_append, ← h, String.ofList_toList]
  have hplace : (⟨byteSize before⟩ : String.Pos.Raw) = (String.ofList before).rawEndPos := by
    rw [byteSize_eq_utf8ByteSize]
    rfl
  rw [hplace, hsplit]
  exact String.Pos.Raw.isValid_rawEndPos.append_right _

theorem byteSize_pos {text : List Char} (h : text ≠ []) : 0 < byteSize text := by
  cases text with
  | nil => exact absurd rfl h
  | cons c text =>
    rw [byteSize_cons]
    exact Nat.add_pos_left c.utf8Size_pos _

/-- **Every byte of a text belongs to one of its characters.** -/
theorem exists_char_of_lt {text : List Char} {byte : Nat} (h : byte < byteSize text) :
    ∃ before c after, text = before ++ c :: after ∧ byteSize before ≤ byte ∧
      byte < byteSize (before ++ [c]) := by
  induction text generalizing byte with
  | nil => exact absurd h (Nat.not_lt_zero byte)
  | cons d text ih =>
    rw [byteSize_cons] at h
    by_cases hfirst : byte < d.utf8Size
    · exact ⟨[], d, text, rfl, Nat.zero_le byte, by simpa using hfirst⟩
    · have hrest : byte - d.utf8Size < byteSize text := by omega
      obtain ⟨before, c, after, rfl, hstart, hstop⟩ := ih hrest
      refine ⟨d :: before, c, after, rfl, ?_, ?_⟩
      · rw [byteSize_cons]
        omega
      · rw [List.cons_append, byteSize_cons]
        omega

end Text

end ParenLambda
