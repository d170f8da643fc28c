import RecordGate.Proofs.Module.Advance

/-! # Validations, stage by stage

A validation prepares a module, runs its start function, finds its entry and runs that. Only the last of these
makes an execution: `validate_eq_ok_iff` says which, and `validate_eq_error_iff` says that whatever goes wrong
before is the result, with the kind of its stage (`instantiate_error_kind`, `entrySteps_error_kind`). -/

namespace RecordGate.Module
open Host

/-- What is kept for a run before the start function of the module runs. The imports are matched, the memory is
    made and filled, no call has been made, and all fuel is there. -/
def prepare (module : Module) (limits : Limits) (records : RecordPair) : Except StageError Store :=
  match importError? module.imports with
  | some error => .error (.instantiate error.message)
  | none => do
    let memory ← (module.emptyMemory limits).mapError .instantiate
    let memory ← (fillMemory memory module.data).mapError .instantiate
    let exported := module.memory.any fun declaration => declaration.exportName = some memoryName
    return ⟨⟨memory, exported, records, []⟩, limits.fuel⟩

/-- A validation in which the entry has run: the steps that the start function and the entry have taken, the
    crash that stopped the entry, if any, and what is kept afterwards. -/
inductive Executed (engine : Engine) (module : Module) (limits : Limits) (records : RecordPair) :
    List Taken → Option Crash → Store → Prop where
  | intro {prepared started after : Store} {steps : List Step} {first second : List Taken}
      {crash? : Option Crash} :
      module.prepare limits records = .ok prepared →
      Ran engine (module.memoryLimit limits) prepared module.startSteps first none started →
      module.entrySteps = .ok steps →
      Ran engine (module.memoryLimit limits) started (.enter :: steps) second crash? after →
      Executed engine module limits records (first ++ second) crash? after

variable {engine : Engine} {module : Module} {limits : Limits} {records : RecordPair}

/-! ### Preparation -/

theorem prepare_eq_ok_iff {prepared : Store} :
    module.prepare limits records = .ok prepared ↔ importError? module.imports = none ∧ ∃ empty memory,
      module.emptyMemory limits = .ok empty ∧ fillMemory empty module.data = .ok memory ∧
      prepared = ⟨⟨memory, module.memory.any fun declaration => declaration.exportName = some memoryName, records, []⟩,
        limits.fuel⟩ := by
  unfold prepare
  constructor
  · intro h
    split at h
    · cases h
    · next himports =>
      obtain ⟨empty, hempty, h⟩ := bind_eq_ok.mp h
      obtain ⟨memory, hmemory, h⟩ := bind_eq_ok.mp h
      cases h
      exact ⟨himports, empty, memory, mapError_eq_ok.mp hempty, mapError_eq_ok.mp hmemory, rfl⟩
  · rintro ⟨himports, empty, memory, hempty, hmemory, rfl⟩
    rw [himports]
    exact bind_eq_ok.mpr ⟨empty, mapError_eq_ok.mpr hempty,
      bind_eq_ok.mpr ⟨memory, mapError_eq_ok.mpr hmemory, rfl⟩⟩

theorem prepare_error_kind {error : StageError} (h : module.prepare limits records = .error error) :
    ∃ message, error = .instantiate message := by
  unfold prepare at h
  split at h
  · cases h
    exact ⟨_, rfl⟩
  · rcases bind_eq_error.mp h with h | ⟨empty, -, h⟩
    · obtain ⟨message, -, rfl⟩ := mapError_eq_error.mp h
      exact ⟨message, rfl⟩
    · rcases bind_eq_error.mp h with h | ⟨memory, -, h⟩
      · obtain ⟨message, -, rfl⟩ := mapError_eq_error.mp h
        exact ⟨message, rfl⟩
      · cases h

/-! ### Instantiation -/

theorem instantiate_eq (module : Module) (engine : Engine) (limits : Limits) (records : RecordPair) :
    module.instantiate engine limits records = module.prepare limits records >>= fun prepared =>
      match runFunction engine (module.memoryLimit limits) prepared module.startSteps with
      | (some crash, _) => .error (.instantiate crash.message)
      | (none, started) => .ok started := by
  unfold instantiate prepare
  cases importError? module.imports with
  | some error => rfl
  | none =>
    rcases module.emptyMemory limits with message | empty
    · rfl
    · simp only [mapError_ok, ok_bind]
      rcases fillMemory empty module.data with message | memory <;> rfl

theorem instantiate_eq_ok_iff {started : Store} :
    module.instantiate engine limits records = .ok started ↔
      ∃ prepared first, module.prepare limits records = .ok prepared ∧
        Ran engine (module.memoryLimit limits) prepared module.startSteps first none started := by
  rw [instantiate_eq, bind_eq_ok]
  constructor
  · rintro ⟨prepared, hprepare, h⟩
    rcases hrun : runFunction engine (module.memoryLimit limits) prepared module.startSteps with ⟨_ | crash, after⟩
    · rw [hrun] at h
      cases h
      obtain ⟨first, hran⟩ := runFunction_eq_iff.mp hrun
      exact ⟨prepared, first, hprepare, hran⟩
    · rw [hrun] at h
      cases h
  · rintro ⟨prepared, first, hprepare, hran⟩
    exact ⟨prepared, hprepare, by rw [hran.runFunction_eq]⟩

theorem instantiate_eq_error_iff {error : StageError} :
    module.instantiate engine limits records = .error error ↔ module.prepare limits records = .error error ∨
      ∃ prepared first crash after, module.prepare limits records = .ok prepared ∧
        Ran engine (module.memoryLimit limits) prepared module.startSteps first (some crash) after ∧
        error = .instantiate crash.message := by
  rw [instantiate_eq, bind_eq_error]
  constructor
  · rintro (h | ⟨prepared, hprepare, h⟩)
    · exact .inl h
    · rcases hrun : runFunction engine (module.memoryLimit limits) prepared module.startSteps with ⟨_ | crash, after⟩
      · rw [hrun] at h
        cases h
      · rw [hrun] at h
        cases h
        obtain ⟨first, hran⟩ := runFunction_eq_iff.mp hrun
        exact .inr ⟨prepared, first, crash, after, hprepare, hran, rfl⟩
  · rintro (h | ⟨prepared, first, crash, after, hprepare, hran, rfl⟩)
    · exact .inl h
    · exact .inr ⟨prepared, hprepare, by rw [hran.runFunction_eq]⟩

theorem entrySteps_eq_ok_iff {steps : List Step} :
    module.entrySteps = .ok steps ↔ module.entryName = requiredEntry ∧ module.entry = .function steps := by
  unfold entrySteps
  by_cases hname : module.entryName = requiredEntry
  · simp only [ne_eq, hname, not_true_eq_false, if_false, true_and]
    cases hentry : module.entry <;> simp
  · simp [hname]

theorem Executed.validate_eq {taken : List Taken} {crash? : Option Crash} {after : Store}
    (h : Executed engine module limits records taken crash? after) (name : String) :
    Validator.validate ⟨name, module⟩ engine limits records = .ok (execution limits crash? after) := by
  obtain ⟨hprepare, hfirst, hsteps, hsecond⟩ := h
  unfold Validator.validate
  rw [instantiate_eq_ok_iff.mpr ⟨_, _, hprepare, hfirst⟩, hsteps]
  simp only [ok_bind, hsecond.runFunction_eq]
  rfl

/-- A module that starts and has its entry is executed, whatever the entry does. -/
theorem exists_executed {started : Store} {steps : List Step}
    (hstarted : module.instantiate engine limits records = .ok started) (hsteps : module.entrySteps = .ok steps) :
    ∃ taken crash? after, Executed engine module limits records taken crash? after := by
  obtain ⟨prepared, first, hprepare, hfirst⟩ := instantiate_eq_ok_iff.mp hstarted
  obtain ⟨second, crash?, after, hsecond⟩ := exists_ran engine (module.memoryLimit limits) started (.enter :: steps)
  exact ⟨_, crash?, after, .intro hprepare hfirst hsteps hsecond⟩

theorem validate_eq_ok_iff {name : String} {execution : Execution} :
    Validator.validate ⟨name, module⟩ engine limits records = .ok execution ↔ ∃ taken crash? after,
      Executed engine module limits records taken crash? after ∧
      execution = Module.execution limits crash? after := by
  constructor
  · intro h
    obtain ⟨started, hstarted, h'⟩ := bind_eq_ok.mp h
    obtain ⟨steps, hsteps, -⟩ := bind_eq_ok.mp h'
    obtain ⟨taken, crash?, after, hexecuted⟩ := exists_executed hstarted hsteps
    rw [hexecuted.validate_eq name] at h
    exact ⟨taken, crash?, after, hexecuted, (Except.ok.inj h).symm⟩
  · rintro ⟨taken, crash?, after, hexecuted, rfl⟩
    exact hexecuted.validate_eq name

theorem validate_eq_error_iff (name : String) {error : StageError} :
    Validator.validate ⟨name, module⟩ engine limits records = .error error ↔
      module.instantiate engine limits records = .error error ∨
      ∃ started, module.instantiate engine limits records = .ok started ∧ module.entrySteps = .error error := by
  unfold Validator.validate
  rw [bind_eq_error]
  refine or_congr Iff.rfl (exists_congr fun started => and_congr Iff.rfl ?_)
  rw [bind_eq_error]
  constructor
  · rintro (h | ⟨steps, -, h⟩)
    · exact h
    · cases h
  · exact .inl

end RecordGate.Module
