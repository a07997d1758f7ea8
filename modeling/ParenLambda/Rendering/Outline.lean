import ParenLambda.Rendering.Rules

/-!
# Outlines of a program

Two tables of rules that show the structure of a program instead of rendering it for a target. The
counted outline writes the program as the source would, counts its names while it goes, marks the
bound ones and shows at each binding how many names have been counted up to there. The bracketed
outline keeps no state and is the plainest table there is.
-/

namespace ParenLambda

namespace Rules

/-- **The counted outline.** The state is the number of names seen so far. -/
def counted : Rules Nat where
  start := 0
  program items count := " ".intercalate items ++ " ; " ++ toString count ++ " atoms"
  definition name value := do
    let count ← get
    pure ("(let " ++ name ++ "@" ++ toString count ++ " " ++ value ++ ")")
  abstraction parameter body := do
    let count ← get
    pure ("(λ " ++ parameter ++ "@" ++ toString count ++ " " ++ body ++ ")")
  application operator operand := pure ("(" ++ operator ++ " " ++ operand ++ ")")
  atom name bound := do
    modify (· + 1)
    pure (if bound then name ++ "'" else name)

/-- **The bracketed outline.** -/
def bracketed : Rules Unit where
  start := ()
  program items _ := "|".intercalate items
  definition name value := pure (name ++ ":=" ++ value)
  abstraction parameter body := pure ("\\" ++ parameter ++ "." ++ body)
  application operator operand := pure ("[" ++ operator ++ " " ++ operand ++ "]")

end Rules

end ParenLambda
