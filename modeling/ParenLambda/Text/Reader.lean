/-!
# Readers

A reader takes characters from the front of a text and gives a result, or fails. Readers are put
together with the operations of the state and option monads: one after the other, or one if another
fails, in which case the other has taken nothing.
-/

namespace ParenLambda

/-- **A reader** of a text. -/
abbrev Reader := StateT (List Char) Option

namespace Reader

variable {α : Type}

/-- The next character, if it satisfies a condition. -/
def satisfying (condition : Char → Bool) : Reader Char
  | c :: rest => if condition c then some (c, rest) else none
  | [] => none

/-- A given character. -/
def char (c : Char) : Reader Unit := do
  let _ ← satisfying (· == c)
  pure ()

/-- The given characters, one after the other. -/
def chars : List Char → Reader Unit
  | [] => pure ()
  | c :: rest => do
    char c
    chars rest

/-- A given word. -/
def word (text : String) : Reader Unit :=
  chars text.toList

/-- The next character, which is left where it is. -/
def peek? : Reader (Option Char)
  | input => some (input.head?, input)

/-- Nothing, at the end of the text. -/
def finish : Reader Unit
  | [] => some ((), [])
  | _ :: _ => none

/-- What a reader gives, or nothing if it fails. -/
def maybe (reader : Reader α) : Reader (Option α) :=
  (do pure (some (← reader))) <|> pure none

/-- What a reader gives as often as it succeeds, at most `bound` times. -/
def upTo (reader : Reader α) : Nat → Reader (List α)
  | 0 => pure []
  | bound + 1 => do
    match ← maybe reader with
    | none => pure []
    | some first => do
      let rest ← upTo reader bound
      pure (first :: rest)

/-- What a reader that takes at least one character gives as often as it succeeds. -/
def many (reader : Reader α) : Reader (List α)
  | input => upTo reader input.length input

/-- What a reader gives, so many times. -/
def exactly (reader : Reader α) : Nat → Reader (List α)
  | 0 => pure []
  | count + 1 => do
    let first ← reader
    let rest ← exactly reader count
    pure (first :: rest)

/-- The characters that a reader takes. -/
def spelled (reader : Reader α) : Reader String
  | input =>
    match reader input with
    | none => none
    | some (_, rest) => some (String.ofList (input.take (input.length - rest.length)), rest)

/-- The result of a reader on a whole text. -/
def run (reader : Reader α) (text : List Char) : Option α :=
  (reader text).map Prod.fst

end Reader

end ParenLambda
