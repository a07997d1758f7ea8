import ParenLambda.Name
import ParenLambda.Text.Blank
import ParenLambda.Token

/-!
# Scanning a source

A source is a sequence of **fragments**: single parentheses, and maximal runs of characters that are
neither blank nor a parenthesis nor a semicolon. A semicolon between fragments or at the end of one
starts a comment, which reaches to the end of the line. Scanning reads the characters once, in one of
three states (between fragments, in a comment, in a run), and cannot fail; what token a fragment is
depends on its text, and for the two spelled-out introducers on the character after it.
-/

namespace ParenLambda

/-- **A fragment** of a source: its characters, the byte at which they start, and the character that
follows them. -/
structure Fragment where
  /-- The characters. -/
  text : List Char
  /-- The byte at which the fragment starts. -/
  start : Nat
  /-- The character after the fragment, if the source goes on. -/
  next : Option Char
  deriving DecidableEq, Repr

namespace Fragment

/-- The stretch of the source that the fragment covers. -/
def span (fragment : Fragment) : Span :=
  ⟨fragment.start, fragment.start + Text.byteSize fragment.text⟩

/-! ### Splitting a source into fragments -/

/-- What the scanner is in the middle of. -/
inductive Reading where
  /-- Between two fragments. -/
  | between
  /-- In a comment, which the next line feed ends. -/
  | comment
  /-- In a run that started at a byte; its characters so far, last one first. -/
  | run (start : Nat) (reversed : List Char)

/-- Whether a character is a fragment by itself. -/
def isParenthesis (c : Char) : Bool :=
  c == '(' || c == ')'

/-- Whether a character can be part of a run. -/
def isOrdinary (c : Char) : Bool :=
  !(Text.isBlank c || isParenthesis c || c == ';')

/-- The state after a character that is not part of a run. -/
def Reading.afterBreak (c : Char) : Reading :=
  if c = ';' then .comment else .between

/-- The fragment that a character which is not part of a run makes by itself, if any. -/
def ofBreak (c : Char) (position : Nat) (rest : List Char) : List Fragment :=
  if isParenthesis c then [⟨[c], position, rest.head?⟩] else []

/-- The fragments of the characters from a byte on, given what the scanner is in the middle of. -/
def scanFrom : Reading → Nat → List Char → List Fragment
  | .run start reversed, _, [] => [⟨reversed.reverse, start, none⟩]
  | .between, _, [] => []
  | .comment, _, [] => []
  | .comment, position, c :: rest =>
    scanFrom (if c = '\n' then .between else .comment) (position + c.utf8Size) rest
  | .between, position, c :: rest =>
    if isOrdinary c then scanFrom (.run position [c]) (position + c.utf8Size) rest
    else ofBreak c position rest ++ scanFrom (.afterBreak c) (position + c.utf8Size) rest
  | .run start reversed, position, c :: rest =>
    if isOrdinary c then scanFrom (.run start (c :: reversed)) (position + c.utf8Size) rest
    else
      ⟨reversed.reverse, start, some c⟩ ::
        (ofBreak c position rest ++ scanFrom (.afterBreak c) (position + c.utf8Size) rest)

/-- The fragments of a source, in order. -/
def scan (source : List Char) : List Fragment :=
  scanFrom .between 0 source

/-! ### From fragments to tokens -/

/-- Whether the fragment is followed by a blank character outside ASCII. -/
def beforeWideBlank (fragment : Fragment) : Bool :=
  fragment.next.any Text.isWideBlank

/-- **The token of a fragment.** The words `let` and `lambda` introduce a binding unless a blank
character outside ASCII follows; then they are atoms with those names. -/
def token (fragment : Fragment) : Token :=
  match fragment.text with
  | ['('] => .opening
  | [')'] => .closing
  | ['λ'] => .introducer .abstraction
  | ['l', 'e', 't'] => if fragment.beforeWideBlank then .atom "let" else .introducer .definition
  | ['l', 'a', 'm', 'b', 'd', 'a'] =>
    if fragment.beforeWideBlank then .atom "lambda" else .introducer .abstraction
  | text => .atom (Name.canonical (String.ofList text))

/-- The fragment as a token with its place. -/
def lexeme (fragment : Fragment) : Lexeme :=
  ⟨fragment.token, fragment.span⟩

end Fragment

namespace Token

/-- **The tokens of a source**, with their places. -/
def scan (source : String) : List Lexeme :=
  (Fragment.scan source.toList).map Fragment.lexeme

/-- The text that spells a list of tokens, with a space between any two. -/
def respell (tokens : List Token) : String :=
  " ".intercalate (tokens.map spelling)

end Token

end ParenLambda
