import ParenLambda.Text.Bytes
import ParenLambda.Text.CharSet

/-!
# Blank characters

Blank is the White_Space property of the Unicode standard: the ASCII controls from tab to carriage
return, the space, the next-line control and the spaces and separators of the general punctuation
block. The zero-width space and the byte order mark are not blank.
-/

namespace ParenLambda

namespace Text

/-- The characters with the White_Space property. -/
def blanks : CharSet where
  ranges := [
    (0x09, 0x0D), (0x20, 0x20), (0x85, 0x85), (0xA0, 0xA0), (0x1680, 0x1680), (0x2000, 0x200A),
    (0x2028, 0x2029), (0x202F, 0x202F), (0x205F, 0x205F), (0x3000, 0x3000)]

/-- Whether a character is white space. -/
def isBlank (c : Char) : Bool :=
  blanks.contains c

/-- Whether a character is white space outside ASCII. -/
def isWideBlank (c : Char) : Bool :=
  isBlank c && decide (0x80 ≤ c.toNat)

/-- A text without the blank characters at its end. -/
def trimEnd (text : String) : String :=
  String.ofList (text.toList.reverse.dropWhile isBlank).reverse

/-- The number of UTF-8 bytes of the blank characters a text starts with. -/
def indentSize (text : List Char) : Nat :=
  byteSize (text.takeWhile isBlank)

end Text

end ParenLambda
