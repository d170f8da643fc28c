import RecordGate.Proofs.Module.Validation

/-! # What a module can make of the state of a run

Between its start and its end a module can call the host and put what it likes into its memory, and nothing
else (`HostState.Reaches`, `Advances.reaches`). The records and the view of the memory that the host had at
the start are not within its reach (`HostState.Reaches.records`, `HostState.Reaches.exported`). -/

namespace RecordGate
open Host

/-- A state that comes from another one by calls of the host, served or not, and by memory of any content. -/
inductive Host.HostState.Reaches (start : HostState) : HostState → Prop where
  | start : Reaches start start
  | called {s : HostState} (request : HostRequest Int32) : Reaches start s → Reaches start (s.serve request).2
  | written {s : HostState} (memory : Host.Memory) : Reaches start s → Reaches start { s with memory := memory }

/-! ### What stays -/

namespace Host.HostState

theorem serve_records (s : HostState) (request : HostRequest Int32) :
    (s.serve request).2.records = s.records := by
  rcases s.serve_cases request with ⟨fault, h⟩ | ⟨answer, t, h, hgranted⟩
  · rw [h]
  · rw [h]
    cases hgranted <;> rfl

theorem serve_exported (s : HostState) (request : HostRequest Int32) :
    (s.serve request).2.exported = s.exported := by
  rcases s.serve_cases request with ⟨fault, h⟩ | ⟨answer, t, h, hgranted⟩
  · rw [h]
  · rw [h]
    cases hgranted <;> rfl

namespace Reaches
variable {start s t : HostState}

theorem records (h : start.Reaches s) : s.records = start.records := by
  induction h with
  | start => rfl
  | called request _ ih => exact (serve_records _ request).trans ih
  | written memory _ ih => exact ih

theorem exported (h : start.Reaches s) : s.exported = start.exported := by
  induction h with
  | start => rfl
  | called request _ ih => exact (serve_exported _ request).trans ih
  | written memory _ ih => exact ih

theorem trans (h : start.Reaches s) (h' : s.Reaches t) : start.Reaches t := by
  induction h' with
  | start => exact h
  | called request _ ih => exact ih.called request
  | written memory _ ih => exact ih.written memory

end Reaches
end Host.HostState

/-! ### Runs -/

namespace Module
variable {engine : Engine} {limit : MemoryLimit}

/-- One step calls the host, changes the memory, or does neither. -/
theorem Effect.reaches {machine next : Machine} {step : Step} (h : Effect limit machine step next) :
    machine.host.Reaches next.host := by
  cases h with
  | @asked step request answer next hrequest hserve hfuel =>
    have hcalled : machine.host.Reaches (machine.host.serve request).2 := .called request .start
    rw [hserve] at hcalled
    exact hcalled
  | grown hallowed =>
    rw [Machine.put_host]
    exact HostState.Reaches.start.written _
  | inside hrequest hgrow hpages hhost hfuel =>
    rw [hhost]
    exact HostState.Reaches.start.written _

theorem Advances.reaches {c c' : Config} {taken : List Taken} (h : Advances engine limit c taken c') :
    c.machine.host.Reaches c'.machine.host := by
  induction h with
  | refl c => exact .start
  | took _ htake _ ih | chose htake _ ih | finished htake _ ih => exact (take_effect htake).reaches.trans ih

theorem Ran.reaches {store after : Store} {steps : List Step} {taken : List Taken} {crash? : Option Crash}
    (h : Ran engine limit store steps taken crash? after) : store.host.Reaches after.host := by
  obtain ⟨c, last, hadvances, hhalts, rfl⟩ := h
  have hreaches := hadvances.reaches
  rw [← hhalts.host_eq] at hreaches
  exact hreaches

/-! ### Validators -/

/-- What a validator reports is what the host has kept in a state that is within reach. -/
theorem validate_reaches {validator : Validator} {limits : Limits} {records : RecordPair}
    {execution : Execution} (h : validator.validate engine limits records = .ok execution) :
    ∃ memory exported host, HostState.Reaches ⟨memory, exported, records, []⟩ host ∧
      execution.report = ⟨host.calls⟩ := by
  obtain ⟨taken, crash?, after, ⟨hprepare, hfirst, hsteps, hsecond⟩, rfl⟩ := validate_eq_ok_iff.mp h
  obtain ⟨-, empty, memory, -, -, rfl⟩ := prepare_eq_ok_iff.mp hprepare
  exact ⟨memory, _, after.host, hfirst.reaches.trans hsecond.reaches, rfl⟩

end Module
end RecordGate
