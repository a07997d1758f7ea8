import ParenLambda.Host.Action
import ParenLambda.Settings

/-!
# Loading settings

Where settings files are looked for: one in the user's configuration directory and one in the
project, which overrides it. A file that cannot be read or is not well formed sets nothing.
-/

namespace ParenLambda

/-- What a command can learn from its environment: the variables that are set. -/
abbrev Environment := List (String × String)

namespace Settings

/-- A path inside another one. -/
def join (base name : String) : String :=
  if base.isEmpty || base.endsWith "/" then base ++ name else base ++ "/" ++ name

/-- The user's configuration directory. -/
def userDirectory? (environment : Environment) : Option String :=
  match environment.lookup "XDG_CONFIG_HOME" with
  | some directory => some directory
  | none =>
    match environment.lookup "HOME" with
    | some home => if home.isEmpty then none else some (join home ".config")
    | none => none

/-- The settings file of the project. -/
def projectFile : String := ".sel/config.toml"

/-- The files with settings, the later ones overriding the earlier ones. -/
def sources (environment : Environment) : List String :=
  match userDirectory? environment with
  | some directory => [join directory "sel/config.toml", projectFile]
  | none => [projectFile]

/-- Add the settings of files to those that are set. -/
def loadFrom (settings : Settings) : List String → Action Settings
  | [] => pure settings
  | path :: rest =>
    .readFile path fun
      | .ok text => loadFrom (settings.override ((read? text).getD empty)) rest
      | .error _ => loadFrom settings rest

/-- **Load the settings.** -/
def load (environment : Environment) : Action Settings :=
  loadFrom empty (sources environment)

end Settings

end ParenLambda
