import ParenLambda.Text.Reader
import ParenLambda.Toml.Value

/-!
# TOML scalars

Strings in their four forms, numbers and moments. Integers are limited to 64 bits with a sign and
floats to what double precision holds; a day has to exist in its month.
-/

namespace ParenLambda

namespace Toml

open Reader

/-! ### Blanks, line ends and comments -/

/-- Whether a character is a space or a tab. -/
def isSpace (c : Char) : Bool :=
  c == ' ' || c == '\t'

/-- Spaces and tabs. -/
def spaces : Reader Unit := do
  let _ ← many (satisfying isSpace)
  pure ()

/-- The end of a line. -/
def newline : Reader Unit :=
  char '\n' <|> word "\r\n"

/-- Whether a character may stand in a comment or a string: no control character but the tab. -/
def isPrintable (c : Char) : Bool :=
  c == '\t' || (decide (0x20 ≤ c.toNat) && c != '\x7f')

/-- A comment, without the end of its line. -/
def comment : Reader Unit := do
  char '#'
  let _ ← many (satisfying isPrintable)
  pure ()

/-- Spaces, line ends and comments, as they may stand between the items of an array. -/
def gaps : Reader Unit := do
  let _ ← many (newline <|> (do let _ ← satisfying isSpace; pure ()) <|> (do comment; newline))
  pure ()

/-! ### Strings -/

/-- The quotation mark. -/
def quotation : Char := '\x22'

/-- The apostrophe. -/
def apostrophe : Char := '\x27'

/-- The value of a hexadecimal digit. -/
def hexValue? (c : Char) : Option Nat :=
  if c.isDigit then some (c.toNat - '0'.toNat)
  else if 'a' ≤ c && c ≤ 'f' then some (c.toNat - 'a'.toNat + 10)
  else if 'A' ≤ c && c ≤ 'F' then some (c.toNat - 'A'.toNat + 10)
  else none

/-- A character given by so many hexadecimal digits. -/
def codePoint (digits : Nat) : Reader Char := do
  let values ← exactly (do
    match hexValue? (← satisfying fun _ => true) with
    | some value => pure value
    | none => failure) digits
  let code := values.foldl (fun code value => 16 * code + value) 0
  if code.isValidChar then pure (Char.ofNat code) else failure

/-- A character written with a backslash. -/
def escaped : Reader Char := do
  char '\\'
  match ← satisfying fun _ => true with
  | 'b' => pure '\x08'
  | 't' => pure '\t'
  | 'n' => pure '\n'
  | 'f' => pure '\x0c'
  | 'r' => pure '\r'
  | '\x22' => pure quotation
  | '\\' => pure '\\'
  | 'u' => codePoint 4
  | 'U' => codePoint 8
  | _ => failure

/-- Whether a character stands for itself between quotation marks. -/
def isPlain (c : Char) : Bool :=
  isPrintable c && c != quotation && c != '\\'

/-- Whether a character stands for itself between apostrophes. -/
def isLiteral (c : Char) : Bool :=
  isPrintable c && c != apostrophe

/-- A string between quotation marks, on one line. -/
def basicString : Reader String := do
  char quotation
  let content ← many (satisfying isPlain <|> escaped)
  char quotation
  pure (String.ofList content)

/-- A string between apostrophes, on one line. -/
def literalString : Reader String := do
  char apostrophe
  let content ← many (satisfying isLiteral)
  char apostrophe
  pure (String.ofList content)

/-- Three delimiters of a string over several lines. -/
def delimiters (delimiter : Char) : Reader Unit :=
  chars [delimiter, delimiter, delimiter]

/-- One or two delimiters inside a string over several lines, which something else follows. -/
def innerDelimiters (delimiter : Char) : Reader (List Char) := do
  let found ← (do chars [delimiter, delimiter]; pure [delimiter, delimiter]) <|>
    (do char delimiter; pure [delimiter])
  match ← peek? with
  | some c => if c == delimiter then failure else pure found
  | none => failure

/-- The end of a string over several lines: up to two delimiters that belong to it, and three that
close it. -/
def closingDelimiters (delimiter : Char) : Reader (List Char) :=
  (do chars [delimiter, delimiter]; delimiters delimiter; pure [delimiter, delimiter]) <|>
    (do char delimiter; delimiters delimiter; pure [delimiter]) <|>
    (do delimiters delimiter; pure [])

/-- A backslash at the end of a line, with the blanks and line ends after it. -/
def joinedLines : Reader (List Char) := do
  char '\\'
  spaces
  newline
  let _ ← many (newline <|> (do let _ ← satisfying isSpace; pure ()))
  pure []

/-- A string over several lines, given what may stand in it. -/
def longString (delimiter : Char) (piece : Reader (List Char)) : Reader String := do
  delimiters delimiter
  let _ ← maybe newline
  let pieces ← many
    (piece <|> (do newline; pure ['\n']) <|> innerDelimiters delimiter)
  let last ← closingDelimiters delimiter
  pure (String.ofList (pieces.flatten ++ last))

/-- A string between triple quotation marks. -/
def longBasicString : Reader String :=
  longString quotation
    ((do pure [← satisfying isPlain]) <|> joinedLines <|> (do pure [← escaped]))

/-- A string between triple apostrophes. -/
def longLiteralString : Reader String :=
  longString apostrophe (do pure [← satisfying isLiteral])

/-- A string in any form. -/
def string : Reader String :=
  longBasicString <|> basicString <|> longLiteralString <|> literalString

/-! ### Numbers -/

/-- Digits, with single underscores between them that do not count. -/
def digits (isDigit : Char → Bool) : Reader (List Char) := do
  let first ← satisfying isDigit
  let rest ← many (satisfying isDigit <|> (do char '_'; satisfying isDigit))
  pure (first :: rest)

/-- The number with the given digits in a base. -/
def ofDigits (base : Nat) (digits : List Char) : Nat :=
  digits.foldl (fun n c => base * n + (hexValue? c).getD 0) 0

/-- Whether a minus sign stands here; a plus sign may. -/
def sign : Reader Bool :=
  (do char '-'; pure true) <|> (do char '+'; pure false) <|> pure false

/-- The digits of a decimal number, which do not start with a superfluous zero. -/
def wholeDigits : Reader (List Char) :=
  (do
    match ← peek? with
    | some '0' => failure
    | _ => digits Char.isDigit) <|> (do char '0'; pure ['0'])

/-- The least number that does not fit 64 bits with a sign; its negative does. -/
def integerLimit : Nat := Nat.pow 2 63

/-- An integer that fits 64 bits with a sign. -/
def integer : Reader Unit :=
  radix "0x" 16 (fun c => (hexValue? c).isSome) <|> radix "0o" 8 (fun c => '0' ≤ c && c ≤ '7') <|>
    radix "0b" 2 (fun c => c == '0' || c == '1') <|> do
      let negative ← sign
      let n := ofDigits 10 (← wholeDigits)
      if n < integerLimit || (negative && n == integerLimit) then pure () else failure
where
  /-- An integer in another base than ten. -/
  radix (mark : String) (base : Nat) (isDigit : Char → Bool) : Reader Unit := do
    word mark
    if ofDigits base (← digits isDigit) < integerLimit then pure () else failure

/-- Whether a decimal number is too large for double precision: `n` times ten to the power `e` rounds
to infinity. Only powers near the limit are worked out. -/
def isHuge (n : Nat) (e : Int) : Bool :=
  let limit := Nat.pow 2 1024 - Nat.pow 2 970
  let magnitude : Int := (toString n).length + e
  if n = 0 then false
  else if magnitude < 300 then false
  else if 320 < magnitude then true
  else if 0 ≤ e then decide (limit ≤ n * Nat.pow 10 e.toNat)
  else decide (limit * Nat.pow 10 (-e).toNat ≤ n)

/-- A float: a fraction, an exponent or both, or one of the special values. -/
def float : Reader Unit :=
  special <|> do
    let negative ← sign
    let whole ← wholeDigits
    let fraction ← maybe (do char '.'; digits Char.isDigit)
    let exponent ← maybe do
      let _ ← satisfying fun c => c == 'e' || c == 'E'
      let below ← sign
      let n : Int := ofDigits 10 (← digits Char.isDigit)
      pure (if below then -n else n)
    if fraction.isNone && exponent.isNone then failure
    let decimals := fraction.getD []
    let scale : Int := exponent.getD 0 - decimals.length
    if !negative && isHuge (ofDigits 10 (whole ++ decimals)) scale then failure
where
  /-- Infinity or not a number. -/
  special : Reader Unit := do
    let _ ← sign
    word "inf" <|> word "nan"

/-! ### Moments -/

/-- A number of exactly so many digits within bounds. -/
def field (count low high : Nat) : Reader Nat := do
  let n := ofDigits 10 (← exactly (satisfying Char.isDigit) count)
  if low ≤ n && n ≤ high then pure n else failure

/-- The days of a month. -/
def daysOf (year month : Nat) : Nat :=
  if month == 2 then
    if year % 4 == 0 && (year % 100 != 0 || year % 400 == 0) then 29 else 28
  else if month == 4 || month == 6 || month == 9 || month == 11 then 30
  else 31

/-- A date. -/
def date : Reader Unit := do
  let year ← field 4 0 9999
  char '-'
  let month ← field 2 1 12
  char '-'
  let _ ← field 2 1 (daysOf year month)

/-- A time of day. -/
def time : Reader Unit := do
  let _ ← field 2 0 23
  char ':'
  let _ ← field 2 0 59
  char ':'
  let _ ← field 2 0 60
  let _ ← maybe do
    char '.'
    let _ ← satisfying Char.isDigit
    many (satisfying Char.isDigit)

/-- A difference from universal time. -/
def offset : Reader Unit :=
  char 'Z' <|> char 'z' <|> do
    let _ ← satisfying fun c => c == '+' || c == '-'
    let _ ← field 2 0 23
    char ':'
    let _ ← field 2 0 59

/-- A date, a time, or both. -/
def moment : Reader Unit :=
  (do
    date
    let _ ← maybe do
      let _ ← satisfying fun c => c == 'T' || c == 't' || c == ' '
      time
      maybe offset) <|> time

/-! ### All of them -/

/-- **A scalar.** -/
def scalar : Reader Value :=
  (do pure (.text (← string))) <|>
    (do word "true"; pure (.truth true)) <|>
    (do word "false"; pure (.truth false)) <|>
    (do pure (.moment (← spelled moment))) <|>
    (do pure (.number (← spelled float))) <|>
    (do pure (.number (← spelled integer)))

end Toml

end ParenLambda
