import ParenLambda.Backend
import ParenLambda.Terminal
import ParenLambda.Toml.Document

/-!
# Settings

What a settings file can set, all of it optional: how programs are compiled, which interpreters run
them, and when colours are used. Settings come from two files, of which the later one overrides the
earlier one key by key; what neither sets has a default.

A file is a TOML document with a table for each group of settings. Keys that mean nothing here may
hold anything. A group can also be given as the array of its settings in their order, with as many
of them as one likes, and further items do not count. A date in place of a group is a group that
sets nothing. A setting of the wrong kind makes the whole file count as absent.
-/

namespace ParenLambda

/-- **Settings**, each of which may be unset. -/
structure Settings where
  /-- The backend to compile with. -/
  backend : Option String := none
  /-- Whether the base library precedes the source. -/
  base : Option Bool := none
  /-- Whether the prelude precedes the output. -/
  prelude : Option Bool := none
  /-- The interpreter for JavaScript. -/
  javaScript : Option String := none
  /-- The interpreter for Python. -/
  python : Option String := none
  /-- When colours are used. -/
  colour : Option ColourMode := none

namespace Settings

/-- Nothing set. -/
def empty : Settings := {}

/-- Settings overridden by later ones. -/
def override (earlier later : Settings) : Settings where
  backend := later.backend <|> earlier.backend
  base := later.base <|> earlier.base
  prelude := later.prelude <|> earlier.prelude
  javaScript := later.javaScript <|> earlier.javaScript
  python := later.python <|> earlier.python
  colour := later.colour <|> earlier.colour

/-! ### Defaults -/

/-- The backend to compile with when none is asked for. -/
def backendName (settings : Settings) : String :=
  settings.backend.getD "javascript"

/-- Whether the base library precedes the source unless it is asked not to. -/
def usesBase (settings : Settings) : Bool :=
  settings.base.getD true

/-- Whether the prelude precedes the output unless it is asked not to. -/
def usesPrelude (settings : Settings) : Bool :=
  settings.prelude.getD true

/-- The interpreter of a target, if the target can be executed. -/
def interpreter? (settings : Settings) : Target → Option String
  | .javaScript => some (settings.javaScript.getD "node")
  | .python => some (settings.python.getD "python3")
  | .church => none

/-! ### Reading -/

/-- The settings of a group by their keys, in order, as far as they are given. -/
def group? (keys : List String) : Option Toml.Value → Option (List (Option Toml.Value))
  | none => some (keys.map fun _ => none)
  | some (.table entries) => some (keys.map fun key => List.lookup key entries)
  | some (.array items) => some (keys.mapIdx fun index _ => items[index]?)
  | some (.moment _) => some (keys.map fun _ => none)
  | some _ => none

/-- A setting that is a string. -/
def text? : Option Toml.Value → Option (Option String)
  | none => some none
  | some (.text content) => some (some content)
  | some _ => none

/-- A setting that is a truth value. -/
def truth? : Option Toml.Value → Option (Option Bool)
  | none => some none
  | some (.truth value) => some (some value)
  | some _ => none

/-- A setting that is a colour mode: its word, or a table with the word as its one key and nothing
under it. -/
def colour? : Option Toml.Value → Option (Option ColourMode)
  | none => some none
  | some (.text word) => (ColourMode.ofWord? word).map some
  | some (.table [(word, .table [])]) => (ColourMode.ofWord? word).map some
  | some (.table [(word, .array [])]) => (ColourMode.ofWord? word).map some
  | some _ => none

/-- The settings of a document. -/
def ofDocument? : Toml.Value → Option Settings
  | .table entries => do
    let compile ← group? ["backend", "base", "prelude"] (entries.lookup "compile")
    let runtime ← group? ["javascript", "python"] (entries.lookup "runtime")
    let output ← group? ["color"] (entries.lookup "output")
    match compile, runtime, output with
    | [backend, base, prelude], [javaScript, python], [colour] =>
      pure {
        backend := ← text? backend
        base := ← truth? base
        prelude := ← truth? prelude
        javaScript := ← text? javaScript
        python := ← text? python
        colour := ← colour? colour }
    | _, _, _ => none
  | _ => none

/-- **The settings of a file** with the given text, if it is well formed. -/
def read? (text : String) : Option Settings := do
  ofDocument? (← Toml.read? text)

end Settings

end ParenLambda
