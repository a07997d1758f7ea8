/-!
# Writing to a terminal

Whether colours are used, and the two ways in which single words are set off: bold names in listings
and the word that starts a one-line error.
-/

namespace ParenLambda

/-- When to use colours. -/
inductive ColourMode where
  /-- When standard error is a terminal. -/
  | auto
  | always
  | never
  deriving DecidableEq, Repr

namespace ColourMode

/-- The mode unless something else is asked for. -/
def default : ColourMode := .auto

/-- The mode in a word. -/
def word : ColourMode → String
  | auto => "auto"
  | always => "always"
  | never => "never"

/-- The mode that a word names. -/
def ofWord? : String → Option ColourMode
  | "auto" => some auto
  | "always" => some always
  | "never" => some never
  | _ => none

/-- **Whether colours are used**, given whether the environment forbids them and whether standard
error is a terminal. What the environment forbids wins over the mode. -/
def usesColours (mode : ColourMode) (forbidden terminal : Bool) : Bool :=
  !forbidden &&
    match mode with
    | auto => terminal
    | always => true
    | never => false

end ColourMode

namespace Terminal

/-- The escape character followed by a sequence that selects a graphic rendition. -/
def rendition (codes : String) : String :=
  "\x1b[" ++ codes ++ "m"

/-- Back to the normal rendition. -/
def reset : String := rendition "0"

/-- A text in bold, if colours are used. -/
def bold (colours : Bool) (text : String) : String :=
  if colours then rendition "1" ++ text ++ reset else text

/-- A line that reports an error. -/
def errorLine (colours : Bool) (message : String) : String :=
  let label := if colours then rendition "1;31" ++ "error" ++ reset else "error"
  label ++ ": " ++ message ++ "\n"

end Terminal

end ParenLambda
