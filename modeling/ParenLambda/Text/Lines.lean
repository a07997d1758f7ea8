/-!
# Texts given by their lines
-/

namespace ParenLambda

namespace Text

/-- **The text with the given lines**, each ended by a line feed. -/
def ofLines : List String → String
  | [] => ""
  | line :: rest => line ++ "\n" ++ ofLines rest

@[simp] theorem ofLines_nil : ofLines [] = "" := rfl

@[simp] theorem ofLines_cons (line : String) (rest : List String) :
    ofLines (line :: rest) = line ++ "\n" ++ ofLines rest := rfl

end Text

end ParenLambda
