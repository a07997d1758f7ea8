/-!
# JSON text

JSON values as far as trees need them, and their text spread over lines: every item of a list and
every field of an object has a line of its own, indented by two blanks a level.
-/

namespace ParenLambda

namespace Json

/-- **A JSON value** built from strings, lists and objects. -/
inductive Value where
  | text (content : String)
  | list (items : List Value)
  /-- An object, with its fields in their order. -/
  | object (fields : List (String × Value))

/-- A hexadecimal digit in lower case. -/
def hexDigit (n : Nat) : Char :=
  Nat.digitChar n

/-- A character inside a string. Quotes, backslashes and control characters are escaped, and all
other characters stand for themselves. -/
def escape (c : Char) : String :=
  if c == '\x22' then "\\\""
  else if c == '\\' then "\\\\"
  else if c == '\x08' then "\\b"
  else if c == '\t' then "\\t"
  else if c == '\n' then "\\n"
  else if c == '\x0c' then "\\f"
  else if c == '\r' then "\\r"
  else if c.toNat < 0x20 then
    "\\u00" ++ String.ofList [hexDigit (c.toNat / 16), hexDigit (c.toNat % 16)]
  else c.toString

/-- A string with its quotes. -/
def quote (content : String) : String :=
  "\"" ++ String.join (content.toList.map escape) ++ "\""

/-- A new line at a level. -/
def newline (level : Nat) : String :=
  "\n" ++ String.ofList (List.replicate (2 * level) ' ')

/-- Items at a level between brackets; nothing stands between the brackets of an empty list. -/
def enclose (opening closing : String) (level : Nat) (items : List String) : String :=
  if items.isEmpty then opening ++ closing
  else
    opening ++ newline (level + 1) ++ ("," ++ newline (level + 1)).intercalate items ++
      newline level ++ closing

mutual

/-- **The text of a value** at a level. -/
def Value.write (level : Nat) : Value → String
  | .text content => quote content
  | .list items => enclose "[" "]" level (writeItems (level + 1) items)
  | .object fields => enclose "\x7b" "\x7d" level (writeFields (level + 1) fields)

/-- The texts of items at a level. -/
def writeItems (level : Nat) : List Value → List String
  | [] => []
  | item :: rest => item.write level :: writeItems level rest

/-- The texts of fields at a level. -/
def writeFields (level : Nat) : List (String × Value) → List String
  | [] => []
  | (key, value) :: rest => (quote key ++ ": " ++ value.write level) :: writeFields level rest

end

end Json

end ParenLambda
