import ParenLambda.Backend.Inlining
import ParenLambda.Compile

/-!
# The catalogue of backends

The backends that can be asked for, in the order in which they were entered. A name or an alias finds
the backend entered last among those that answer to it, so a later entry hides an earlier one of the
same name.
-/

namespace ParenLambda

/-- **A catalogue of backends**, in the order of entry. -/
structure Catalogue where
  /-- The backends. -/
  backends : List Backend

namespace Catalogue

/-- The backends that are always there. -/
def standard : Catalogue where
  backends := [.javaScript, .javaScriptInline, .church, .python]

/-- Enter one more backend. -/
def enter (catalogue : Catalogue) (backend : Backend) : Catalogue where
  backends := catalogue.backends ++ [backend]

/-- The names of the backends, in the order of entry. -/
def names (catalogue : Catalogue) : List String :=
  catalogue.backends.map Backend.name

/-- The backend entered last among those that answer to a name. -/
def find? (catalogue : Catalogue) (name : String) : Option Backend :=
  catalogue.backends.reverse.find? (·.answers name)

/-- The backend of a name; a name that finds none is a fault. -/
def resolve (catalogue : Catalogue) (name : String) : Except Fault Backend :=
  match catalogue.find? name with
  | some backend => .ok backend
  | none => .error (.unknownBackend name)

/-- The text of a program in the backend of a name. -/
def renderProgram (catalogue : Catalogue) (name : String) (program : Program)
    (prelude : Option String) : Except Fault String :=
  match catalogue.resolve name with
  | .error fault => .error fault
  | .ok backend => .ok (backend.render program prelude)

/-- **The text of a source** in the backend of a name. The name is looked up before the source is, so
an unknown backend is reported even for a faulty source. -/
def render (catalogue : Catalogue) (name source : String) (prelude : Option String) :
    Except Fault String :=
  match catalogue.resolve name with
  | .error fault => .error fault
  | .ok backend =>
    match Program.compile source with
    | .error fault => .error fault
    | .ok program => .ok (backend.render program prelude)

end Catalogue

end ParenLambda
