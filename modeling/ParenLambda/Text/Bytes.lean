/-!
# Texts measured in bytes

Sources are lists of characters, and their places are counted in UTF-8 bytes. An offset is a
*boundary* of a text if no character of the text straddles it.
-/

namespace ParenLambda

namespace Text

/-- The number of UTF-8 bytes of a list of characters. -/
def byteSize : List Char → Nat
  | [] => 0
  | c :: rest => c.utf8Size + byteSize rest

@[simp] theorem byteSize_nil : byteSize [] = 0 := rfl

@[simp] theorem byteSize_cons (c : Char) (text : List Char) :
    byteSize (c :: text) = c.utf8Size + byteSize text := rfl

@[simp] theorem byteSize_append (left right : List Char) :
    byteSize (left ++ right) = byteSize left + byteSize right := by
  induction left with
  | nil => simp
  | cons c left ih => simp [ih, Nat.add_assoc]

/-- The characters of a text from a byte on, if that byte is a boundary of the text. -/
def dropBytes? : List Char → Nat → Option (List Char)
  | text, 0 => some text
  | [], _ + 1 => none
  | c :: rest, n + 1 => if c.utf8Size ≤ n + 1 then dropBytes? rest (n + 1 - c.utf8Size) else none

@[simp] theorem dropBytes?_zero (text : List Char) : dropBytes? text 0 = some text := by
  cases text <;> rfl

/-- Dropping the bytes of the first part of a text leaves its second part. -/
theorem dropBytes?_append (left right : List Char) :
    dropBytes? (left ++ right) (byteSize left) = some right := by
  induction left with
  | nil => simp
  | cons c left ih =>
    have hpos : 0 < c.utf8Size := c.utf8Size_pos
    obtain ⟨n, hn⟩ : ∃ n, c.utf8Size + byteSize left = n + 1 :=
      ⟨c.utf8Size + byteSize left - 1, by omega⟩
    rw [List.cons_append, byteSize_cons, hn, dropBytes?]
    rw [if_pos (by omega), ← hn, Nat.add_sub_cancel_left, ih]

end Text

end ParenLambda
