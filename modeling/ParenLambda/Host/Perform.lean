import ParenLambda.Host.World

/-!
# Carrying out actions

What an action comes to in a world: its value and the world it leaves. Programs are found as a shell
finds them, by a path if the command holds a slash and among the installed ones otherwise.
-/

namespace ParenLambda

namespace World

/-- The directories of installed programs. -/
def programDirectories : List String := ["/usr/bin", "/bin"]

/-- The names of a path that lead somewhere. -/
def components (path : String) : List String :=
  (path.splitOn "/").filter fun name => name != "" && name != "."

/-- A path from the directory of a world as an absolute path. -/
def absolute (world : World) (path : String) : String :=
  if path.startsWith "/" then path
  else "/".intercalate (world.directory :: components path)

/-- Whether a command is a path: something stands on either side of a slash in it. -/
def isPath (command : String) : Bool :=
  let names := components command
  let start := if command.startsWith "/" || command == "." || command.startsWith "./" then 1 else 0
  decide (1 < names.length + start)

/-- Find the program that a command names. -/
def locate (world : World) (command : String) : Option String :=
  if isPath command then
    let path := world.absolute command
    match world.files.resolve world.directory path with
    | .ok (.file _ content) => if content.executable then some path else none
    | _ => if world.installed.contains path then some path else none
  else
    (programDirectories.map fun directory => directory ++ "/" ++ command).find? fun path =>
      world.installed.contains path

end World

namespace Action

variable {α : Type}

/-- **Carry out an action** in a world. -/
def perform : Action α → World → α × World
  | done value, world => (value, world)
  | readFile path next, world => (next (world.readFile path)).perform world
  | readInput next, world =>
    (next (World.decode world.input)).perform { world with input := .empty }
  | writeFile path text next, world =>
    match world.writeFile path text with
    | .ok world => (next (.ok ())).perform world
    | .error refusal => (next (.error refusal)).perform world
  | print text next, world =>
    let (answer, world) := world.print text
    (next answer).perform world
  | complain text next, world =>
    let (answer, world) := world.complain text
    (next answer).perform world
  | locate command next, world => (next (world.locate command)).perform world
  | execute program input next, world =>
    let (ending, world) := world.execute program input
    (next ending).perform world

theorem perform_bind {β : Type} (action : Action α) (rest : α → Action β) (world : World) :
    (action.bind rest).perform world =
      (rest (action.perform world).1).perform (action.perform world).2 := by
  induction action generalizing world with
  | done value => rfl
  | readFile path next ih => exact ih _ _
  | readInput next ih => exact ih _ _
  | writeFile path text next ih =>
    simp only [bind, perform]
    split
    · exact ih _ _
    · exact ih _ _
  | print text next ih => exact ih _ _
  | complain text next ih => exact ih _ _
  | locate command next ih => exact ih _ _
  | execute program input next ih => exact ih _ _

end Action

end ParenLambda
