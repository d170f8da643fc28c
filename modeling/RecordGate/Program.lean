import RecordGate.CommandLine
import RecordGate.Module.Validator
import RecordGate.Settings.Reader

/-! # The program

The program goes through its stages in order: it reads and merges the settings, reads the records, loads the
module, and validates. The first stage that fails ends it with an error and an exit code of the stage.
Otherwise it prints the execution. The engine that runs the module and the comments on documents that are refused
are not its own (`Surroundings`). -/

namespace RecordGate.Program
open CommandLine Host

/-- What the program relies on: an engine to run modules, and comments on documents that are no settings. -/
structure Surroundings where
  engine : Module.Engine
  comments : Toml.Comments

/-- How the program ended: its exit code, and what it wrote for its user and about errors. -/
structure Ending where
  code : Nat
  output : String
  errors : String
  deriving DecidableEq

/-- Why the program ended before the module had run. -/
inductive Failure where
  | settings (error : SettingsError)
  | stage (error : StageError)
  deriving DecidableEq

/-- The wording of the failure. -/
def Failure.message (comments : Toml.Comments) : Failure → String
  | .settings error => "Failed to load config: " ++ error.message comments
  | .stage error => error.message

/-- The exit code of the failure. -/
def Failure.exitCode : Failure → Nat
  | .settings _ => 1
  | .stage error => error.exitCode

/-- The settings of the file that the options name, or else the defaults, with the options put over them. -/
def settings (files : Files) (options : Options) : Except SettingsError Settings :=
  match options.config with
  | none => .ok (options.override {})
  | some path => (Settings.ofFile files path).map options.override

/-- The plan of a run. -/
def plan (files : Files) (options : Options) : Except SettingsError Plan := do
  (← settings files options).plan

/-- Loads the module of a plan. -/
def loadModule (engine : Module.Engine) (files : Files) (plan : Plan) : Except StageError Module.Validator :=
  match files plan.module with
  | .error e => .error (.load ("Failed to read WASM file '" ++ plan.module ++ "': " ++ e.message))
  | .ok bytes => Module.Validator.load engine plan.settings.validatorName bytes

/-- Carries out a plan. -/
def execute (engine : Module.Engine) (files : Files) (plan : Plan) : Except StageError Execution := do
  let records ← RecordPair.ofFiles files plan.current plan.settings.records.previous
  let validator ← loadModule engine files plan
  validator.validate engine plan.settings.limits records

/-- Goes through all stages. -/
def perform (engine : Module.Engine) (files : Files) (options : Options) : Except Failure (Plan × Execution) := do
  let plan ← (plan files options).mapError .settings
  let execution ← (execute engine files plan).mapError .stage
  return (plan, execution)

/-- The exit code after an execution. -/
def executionCode (execution : Execution) : Nat :=
  if execution.isAborted then 5 else 0

/-- How the program ends with options. -/
def ending (around : Surroundings) (files : Files) (options : Options) : Ending :=
  match perform around.engine files options with
  | .error failure => ⟨failure.exitCode, "", "❌ " ++ failure.message around.comments ++ "\n"⟩
  | .ok (plan, execution) =>
    ⟨executionCode execution, execution.shown plan.settings.runtime.verbosity, ""⟩

/-- How the program ends with arguments. -/
def run (around : Surroundings) (files : Files) (arguments : List String) : Ending :=
  match CommandLine.parse arguments with
  | .ok options => ending around files options
  | .error .help => ⟨0, helpText, ""⟩
  | .error .version => ⟨0, versionText, ""⟩
  | .error .misuse => ⟨2, "", usageText⟩

end RecordGate.Program
