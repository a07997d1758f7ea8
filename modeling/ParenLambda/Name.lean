import ParenLambda.Text.Identifier

/-!
# Names

A symbol of the source may hold nearly any character, while a name in the output has to be an
identifier of every target language. Each symbol therefore has one **canonical name**. The operator
symbols and the three capitalised words of the booleans have names of their own; in every other
symbol the characters that no identifier may hold become underscores, and a symbol that then still
starts like a number gets a prefix of letters.
-/

namespace ParenLambda

namespace Name

/-- The symbols with names of their own. -/
def operators : List (String × String) := [
  ("+", "T_PLUS"), ("-", "T_MINUS"), ("*", "T_MULTIPLICATION"), ("/", "T_DIVISION"),
  ("=", "T_EQUAL"), ("≠", "T_NOT_EQUAL"), ("<", "T_IS_L_THAN"), ("≤", "T_IS_L_THAN_EQ"),
  (">", "T_IS_G_THAN"), ("≥", "T_IS_G_THAN_EQ"), ("∧", "T_AND"), ("∨", "T_OR"), ("¬", "T_NOT"),
  ("∅", "T_NULL"), ("If", "T_IF"), ("True", "T_TRUE"), ("False", "T_FALSE")]

/-- The letters put before a symbol that starts like a number. -/
def numeralMark : String := "BUILTIN___"

/-- A character of a symbol as its name shows it: itself if identifiers may hold it, an underscore
otherwise. -/
def safe (c : Char) : Char :=
  if Text.isIdentifierPart c then c else '_'

/-- Whether a name may start with the character. -/
def canLead (c : Char) : Bool :=
  c == '_' || Text.isIdentifierStart c

/-- The name of a symbol that is no operator: safe characters only, behind the numeral mark if the
first of them cannot lead a name. -/
def sanitize (symbol : List Char) : List Char :=
  match symbol.map safe with
  | [] => []
  | first :: rest =>
    if canLead first then first :: rest else numeralMark.toList ++ first :: rest

/-- **The canonical name** of a symbol. -/
def canonical (symbol : String) : String :=
  match operators.lookup symbol with
  | some name => name
  | none => String.ofList (sanitize symbol.toList)

end Name

end ParenLambda
