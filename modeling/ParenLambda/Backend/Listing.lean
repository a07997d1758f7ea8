import ParenLambda.Backend
import ParenLambda.Terminal

/-!
# Listings of backends

One line for each backend, in columns: its name, what it does with definitions, and its description
with the further names it answers to. The column of names is as wide as the longest name is in
bytes, while a name is filled up to that width by its characters.
-/

namespace ParenLambda

namespace Backend

/-- A text filled up with blanks to a number of characters. -/
def fill (width : Nat) (text : String) : String :=
  text ++ String.ofList (List.replicate (width - text.length) ' ')

/-- The width of the column of disciplines. -/
def disciplineWidth : Nat := 8

/-- The line of a backend in a listing whose names take the given width. -/
def listingLine (colours : Bool) (width : Nat) (backend : Backend) : String :=
  let names :=
    if backend.aliases.isEmpty then ""
    else " (aliases: " ++ ", ".intercalate backend.aliases ++ ")"
  Terminal.bold colours (fill width backend.name) ++ "  " ++
    fill disciplineWidth backend.discipline.word ++ "  " ++ backend.description ++ names

/-- **The lines of a listing.** -/
def listing (colours : Bool) (backends : List Backend) : List String :=
  let width := (backends.map fun backend => backend.name.utf8ByteSize).foldl max 0
  backends.map (listingLine colours width)

end Backend

end ParenLambda
