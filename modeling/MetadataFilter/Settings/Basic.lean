import MetadataFilter.Compiler
import MetadataFilter.Settings.Environment
import MetadataFilter.Settings.File

/-!
# Settings

Three settings say how filters are compiled: the mode, the nesting limit and whether fragments
become clauses. `Settings.load` takes each from the environment, else from the settings file, else
its default; a value that is overridden is not looked at. Environment variables are put on top of
what the file says, as their keys may lead to parts of settings.
-/

namespace MetadataFilter

structure Settings where
  mode : Mode := .legacy
  maxDepth : Nat := defaultMaxDepth
  /-- Fragments that are not empty become filter clauses. -/
  clause : Bool := false
  deriving DecidableEq

/-- Why settings cannot be loaded. -/
inductive SettingsError
  /-- The file cannot be read, or a value does not fit its setting. -/
  | unusable
  | zeroMaxDepth
  deriving DecidableEq

/-- The text of an error, if it has one of its own. -/
def SettingsError.message? : SettingsError → Option String
  | .unusable => none
  | .zeroMaxDepth => some "Config: max_depth must be at least 1"

namespace Settings

def choose {α : Type} (values : SettingValues) (name : String) (convert : SettingValue → Option α)
    (default : α) : Except SettingsError α :=
  match values.find? name with
  | none => .ok default
  | some value =>
    match convert value with
    | some x => .ok x
    | none => .error .unusable

/-- The settings that values make up. -/
def ofValues (values : SettingValues) : Except SettingsError Settings := do
  let mode ← choose values "mode" (fun value => value.toLabel?.bind Mode.ofLabel?) .legacy
  let maxDepth ← choose values "max_depth" SettingValue.toNat? defaultMaxDepth
  let clause ← choose values "clause" SettingValue.toBool? false
  if maxDepth = 0 then throw .zeroMaxDepth
  return { mode, maxDepth, clause }

/-- The values in a settings file, if a path is given. -/
def fileValues (host : Host) (path : Option String) : Except SettingsError SettingValues :=
  match path with
  | none => .ok []
  | some path =>
    match SettingValues.load? host path with
    | some values => .ok values
    | none => .error .unusable

/-- Loads the settings, with those of a file if a path is given. -/
def load (host : Host) (path : Option String) : Except SettingsError Settings := do
  let file ← fileValues host path
  ofValues (file ++ SettingValues.ofEnvironment host.environment)

def compiler (settings : Settings) : Compiler := ⟨settings.mode, settings.maxDepth⟩

end Settings

end MetadataFilter
