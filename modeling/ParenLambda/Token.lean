/-!
# Tokens

The vocabulary of the source language: two parentheses, two introducers and atoms. An introducer
right after an opening parenthesis makes the form a binding; its name is the atom that follows.
Positions in a source are counted in UTF-8 bytes.
-/

namespace ParenLambda

/-- A stretch of a source, from the byte `start` up to but not including the byte `stop`. -/
structure Span where
  /-- The first byte. -/
  start : Nat
  /-- The byte after the last one. -/
  stop : Nat
  deriving DecidableEq, Repr

namespace Span

/-- The number of bytes of a span; a span that stops before it starts has none. -/
def size (span : Span) : Nat :=
  span.stop - span.start

/-- The span moved to the right. -/
def shift (bytes : Nat) (span : Span) : Span :=
  ⟨span.start + bytes, span.stop + bytes⟩

/-- The empty span at an offset. -/
def point (offset : Nat) : Span :=
  ⟨offset, offset⟩

end Span

/-- What a binding introduces: a name for an expression, or the parameter of a function. -/
inductive Introducer where
  /-- `let`, which names an expression. -/
  | definition
  /-- `λ`, which makes a function. -/
  | abstraction
  deriving DecidableEq, Repr

/-- The word that stands for an introducer in messages and in respelled sources. -/
def Introducer.word : Introducer → String
  | .definition => "let"
  | .abstraction => "λ"

/-- **A token** of the source language. -/
inductive Token where
  /-- `(` -/
  | opening
  /-- `)` -/
  | closing
  /-- `let`, `λ` or `lambda` -/
  | introducer (kind : Introducer)
  /-- Any other word, by its canonical name. -/
  | atom (name : String)
  deriving DecidableEq, Repr

namespace Token

/-- The token as messages call it. -/
def describe : Token → String
  | opening => "'('"
  | closing => "')'"
  | introducer kind => "'" ++ kind.word ++ "'"
  | atom name => "atom '" ++ name ++ "'"

/-- The text that spells the token. -/
def spelling : Token → String
  | opening => "("
  | closing => ")"
  | introducer kind => kind.word
  | atom name => name

end Token

/-- A token and the stretch of the source that spells it. -/
structure Lexeme where
  /-- The token. -/
  token : Token
  /-- Where it stands. -/
  span : Span
  deriving DecidableEq, Repr

end ParenLambda
