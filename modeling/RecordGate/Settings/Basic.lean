import RecordGate.Files
import RecordGate.Module.Validator
import RecordGate.Toml.Value

/-! # Settings

What a run needs to know: which module to run, on which records, and within which limits. Settings are
incomplete until they have been checked; complete ones make a plan. -/

namespace RecordGate

namespace Settings

/-- The module to run, and the name it is known by. -/
structure Validator where
  path : Option String := none
  name : Option String := none
  deriving DecidableEq

/-- The files of the record and of its earlier version, which a new record does not have. -/
structure Records where
  current : Option String := none
  previous : Option String := none
  deriving DecidableEq

/-- The limits of a run, and how much is shown of it: at zero no diagnostics. -/
structure Runtime where
  fuel : Nat := 100000000
  memoryBytes : Nat := 64 * 1024 * 1024
  verbosity : Nat := 0
  deriving DecidableEq

end Settings

/-- All settings. -/
structure Settings where
  validator : Settings.Validator := {}
  records : Settings.Records := {}
  runtime : Settings.Runtime := {}
  deriving DecidableEq

/-- Why there are no settings to run with. A document that is refused is kept with the reason. -/
inductive SettingsError where
  | unreadable (path : String) (reason : FileError)
  | notToml (document : String)
  | mismatch (document : String) (what : Mismatch)
  | noModule
  | noRecord
  | noFuel
  | noMemory
  deriving DecidableEq

/-- The wording of the error, where what is said of documents is given. -/
def SettingsError.message (comments : Toml.Comments) : SettingsError → String
  | .unreadable path reason => "Failed to read '" ++ path ++ "': " ++ reason.message
  | .notToml document => "Invalid TOML: " ++ comments.broken document
  | .mismatch document what =>
    "Invalid TOML: " ++ comments.place document what ++ what.message Toml.doubleText ++ "\n"
  | .noModule => "Missing setting: validator.path"
  | .noRecord => "Missing setting: records.current"
  | .noFuel => "Invalid setting: runtime.fuel must be greater than 0"
  | .noMemory => "Invalid setting: runtime.max_memory_bytes must allow at least one 64 KiB page"

/-- Settings that name a module and a record, with the paths of both. -/
structure Plan where
  settings : Settings
  module : String
  current : String
  deriving DecidableEq

namespace Settings

/-- The name of the validator: the one it was given, or else that of its file without its ending. -/
def validatorName (settings : Settings) : String :=
  match settings.validator.name with
  | some name => name
  | none => ((settings.validator.path.bind fileName?).map stem).getD "validator"

/-- The limits of a run. -/
def limits (settings : Settings) : Module.Limits :=
  ⟨settings.runtime.fuel, settings.runtime.memoryBytes⟩

/-- Checks that the settings name a module and a record, and that there is fuel and at least one page of
    memory, in this order. -/
def plan (settings : Settings) : Except SettingsError Plan :=
  match settings.validator.path, settings.records.current with
  | none, _ => .error .noModule
  | some _, none => .error .noRecord
  | some module, some current =>
    if settings.runtime.fuel = 0 then .error .noFuel
    else if settings.runtime.memoryBytes < Host.pageSize then .error .noMemory
    else .ok ⟨settings, module, current⟩

end RecordGate.Settings
