/-!
# TOML values

The values of the TOML format for settings. Nothing in this library calculates with the numbers and
dates of a settings file, so these are kept as they are spelled.
-/

namespace ParenLambda

namespace Toml

/-- **A value.** -/
inductive Value where
  /-- A string. -/
  | text (content : String)
  /-- A truth value. -/
  | truth (value : Bool)
  /-- An integer or a float. -/
  | number (spelling : String)
  /-- A date, a time, or both. -/
  | moment (spelling : String)
  /-- An array. -/
  | array (items : List Value)
  /-- A table, with its keys in the order in which they are set. -/
  | table (entries : List (String × Value))

end Toml

end ParenLambda
