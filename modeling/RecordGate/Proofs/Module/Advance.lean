import RecordGate.Proofs.Module.Effect

/-! # Runs, step by step

A function in the middle of its run is a machine and the steps that lie ahead of it (`Config`). `Advances`
takes it from one such point to another and lists the steps that it takes on the way; a branch puts the steps
that it chooses in front of the others and is not listed itself. A run of a function takes steps until none
lies ahead or the next one crashes, and running the function gives just that (`runFunction_eq_iff`). -/

namespace RecordGate.Module
open Host

/-- A function in the middle of its run: the machine, and the steps that lie ahead. -/
structure Config where
  machine : Machine
  ahead : List Step

/-- A step that was taken, with the machine before and after it. -/
structure Taken where
  before : Machine
  step : Step
  after : Machine

/-- Whether a step does something of its own. Branches and the end of a function only say what lies ahead. -/
def Step.isSimple : Step → Bool
  | .branch _ _ _ _ | .finish => false
  | _ => true

/-- The steps that a branch chooses. -/
def Machine.choose (machine : Machine) (left right : Operand) (equal unequal : List Step) : List Step :=
  if machine.value left = machine.value right then equal else unequal

/-- A run gets from one point to another by taking steps. -/
inductive Advances (engine : Engine) (limit : MemoryLimit) : Config → List Taken → Config → Prop where
  | refl (c : Config) : Advances engine limit c [] c
  | took {machine next : Machine} {step : Step} {rest : List Step} {taken : List Taken} {c : Config} :
      step.isSimple = true → machine.take engine limit step = (.ok (), next) →
      Advances engine limit ⟨next, rest⟩ taken c →
      Advances engine limit ⟨machine, step :: rest⟩ (⟨machine, step, next⟩ :: taken) c
  | chose {machine next : Machine} {left right : Operand} {equal unequal rest : List Step} {taken : List Taken}
      {c : Config} : machine.take engine limit (.branch left right equal unequal) = (.ok (), next) →
      Advances engine limit ⟨next, next.choose left right equal unequal ++ rest⟩ taken c →
      Advances engine limit ⟨machine, .branch left right equal unequal :: rest⟩ taken c
  | finished {machine next : Machine} {rest : List Step} {taken : List Taken} {c : Config} :
      machine.take engine limit .finish = (.ok (), next) → Advances engine limit ⟨next, []⟩ taken c →
      Advances engine limit ⟨machine, .finish :: rest⟩ taken c

/-- A run is over: no step lies ahead, or the next one crashes. What is left of the machine is told too. -/
inductive Halts (engine : Engine) (limit : MemoryLimit) : Config → Option Crash → Machine → Prop where
  | ended (machine : Machine) : Halts engine limit ⟨machine, []⟩ none machine
  | crashed {machine last : Machine} {step : Step} {rest : List Step} {crash : Crash} :
      machine.take engine limit step = (.error crash, last) →
      Halts engine limit ⟨machine, step :: rest⟩ (some crash) last

/-- Steps are run on what is kept: those that are taken, the crash that stops them, if any, and what they
    leave. -/
def Ran (engine : Engine) (limit : MemoryLimit) (store : Store) (steps : List Step) (taken : List Taken)
    (crash? : Option Crash) (after : Store) : Prop :=
  ∃ c last, Advances engine limit ⟨⟨store, fun _ => 0⟩, steps⟩ taken c ∧ Halts engine limit c crash? last ∧
    last.toStore = after

variable {engine : Engine} {limit : MemoryLimit}

theorem Advances.trans {a b c : Config} {first second : List Taken} (h : Advances engine limit a first b)
    (h' : Advances engine limit b second c) : Advances engine limit a (first ++ second) c := by
  induction h with
  | refl c => exact h'
  | took hsimple htake _ ih => exact .took hsimple htake (ih h')
  | chose htake _ ih => exact .chose htake (ih h')
  | finished htake _ ih => exact .finished htake (ih h')

/-- A crash that ends a run leaves everything but the fuel as it was. -/
theorem Halts.host_eq {c : Config} {crash? : Option Crash} {last : Machine} (h : Halts engine limit c crash? last) :
    last.host = c.machine.host := by
  cases h with
  | ended machine => rfl
  | crashed htake => exact (take_crashed htake).host

/-- Where the fuel was too little, nothing is left of it. -/
theorem Halts.fuel_eq_zero {c : Config} {crash : Crash} {last : Machine} (h : Halts engine limit c (some crash) last)
    (hfuel : crash.trap = .outOfFuel) : last.fuel = 0 := by
  cases h with
  | crashed htake => exact (take_crashed htake).fuel_eq_zero hfuel

/-- No run comes by more fuel than it had. -/
theorem Advances.fuel_le {c c' : Config} {taken : List Taken} (h : Advances engine limit c taken c') :
    c'.machine.fuel ≤ c.machine.fuel := by
  induction h with
  | refl c => exact Nat.le_refl _
  | took _ htake _ ih | chose htake _ ih | finished htake _ ih => exact Nat.le_trans ih (take_fuel_le htake)

theorem Halts.fuel_le {c : Config} {crash? : Option Crash} {last : Machine} (h : Halts engine limit c crash? last) :
    last.fuel ≤ c.machine.fuel := by
  cases h with
  | ended machine => exact Nat.le_refl _
  | crashed htake => exact (take_crashed htake).fuel_le

theorem Ran.fuel_le {store after : Store} {steps : List Step} {taken : List Taken} {crash? : Option Crash}
    (h : Ran engine limit store steps taken crash? after) : after.fuel ≤ store.fuel := by
  obtain ⟨c, last, hadvances, hhalts, rfl⟩ := h
  exact Nat.le_trans hhalts.fuel_le hadvances.fuel_le

/-! ### Every run is over at some point -/

theorem sizeOf_append (first second : List Step) : sizeOf (first ++ second) + 1 = sizeOf first + sizeOf second := by
  induction first with
  | nil => simp [Nat.add_comm]
  | cons step rest ih => simp only [List.cons_append, List.cons.sizeOf_spec]; omega

theorem sizeOf_choose_append (machine : Machine) (left right : Operand) (equal unequal rest : List Step) :
    sizeOf (machine.choose left right equal unequal ++ rest) <
      sizeOf (Step.branch left right equal unequal :: rest) := by
  have happend := sizeOf_append (machine.choose left right equal unequal) rest
  have hchosen : sizeOf (machine.choose left right equal unequal) ≤ sizeOf equal + sizeOf unequal := by
    unfold Machine.choose
    split <;> omega
  simp only [List.cons.sizeOf_spec, Step.branch.sizeOf_spec]
  omega

theorem exists_halts (engine : Engine) (limit : MemoryLimit) (machine : Machine) (steps : List Step) :
    ∃ taken c crash? last, Advances engine limit ⟨machine, steps⟩ taken c ∧ Halts engine limit c crash? last := by
  match steps with
  | [] => exact ⟨[], _, _, _, .refl _, .ended machine⟩
  | step :: rest =>
    rcases htake : machine.take engine limit step with ⟨crash | _, next⟩
    · exact ⟨[], _, _, _, .refl _, .crashed htake⟩
    · by_cases hsimple : step.isSimple = true
      · obtain ⟨taken, c, crash?, last, hadvances, hhalts⟩ := exists_halts engine limit next rest
        exact ⟨_, c, crash?, last, .took hsimple htake hadvances, hhalts⟩
      · cases step with
        | branch left right equal unequal =>
          have hsmaller := sizeOf_choose_append next left right equal unequal rest
          obtain ⟨taken, c, crash?, last, hadvances, hhalts⟩ :=
            exists_halts engine limit next (next.choose left right equal unequal ++ rest)
          exact ⟨taken, c, crash?, last, .chose htake hadvances, hhalts⟩
        | finish => exact ⟨[], _, _, _, .finished htake (.refl _), .ended next⟩
        | _ => exact absurd rfl hsimple
termination_by sizeOf steps
decreasing_by
  · simp only [List.cons.sizeOf_spec]
    omega
  · exact hsmaller

/-! ### Running gives the end of the run -/

/-- The crash that a flow ends with, if it does. -/
def Flow.crash? : Flow → Option Crash
  | .crashed crash => some crash
  | .next | .returned => none

/-- What running the steps ahead gives. -/
def Config.outcome (engine : Engine) (limit : MemoryLimit) (c : Config) : Option Crash × Machine :=
  ((runSteps engine limit c.machine c.ahead).1.crash?, (runSteps engine limit c.machine c.ahead).2)

theorem runSteps_append (machine : Machine) (first second : List Step) :
    runSteps engine limit machine (first ++ second) = match runSteps engine limit machine first with
      | (.next, machine) => runSteps engine limit machine second
      | stopped => stopped := by
  induction first generalizing machine with
  | nil => rfl
  | cons step rest ih =>
    rw [List.cons_append, runSteps, runSteps]
    rcases step.run engine limit machine with ⟨_ | _ | crash, next⟩
    · exact ih next
    · rfl
    · rfl

theorem run_of_crashed {machine last : Machine} {step : Step} {crash : Crash}
    (h : machine.take engine limit step = (.error crash, last)) :
    step.run engine limit machine = (.crashed crash, last) := by
  rw [Step.run.eq_def, h]

theorem run_of_isSimple {machine next : Machine} {step : Step} (hsimple : step.isSimple = true)
    (h : machine.take engine limit step = (.ok (), next)) : step.run engine limit machine = (.next, next) := by
  rw [Step.run.eq_def, h]
  dsimp only
  split
  · cases hsimple
  · cases hsimple
  · rfl

theorem runSteps_finish {machine next : Machine} (h : machine.take engine limit .finish = (.ok (), next))
    (rest : List Step) : runSteps engine limit machine (.finish :: rest) = (.returned, next) := by
  rw [runSteps, Step.run.eq_def, h]

theorem run_branch {machine next : Machine} {left right : Operand} {equal unequal : List Step}
    (h : machine.take engine limit (.branch left right equal unequal) = (.ok (), next)) :
    (Step.branch left right equal unequal).run engine limit machine =
      runSteps engine limit next (next.choose left right equal unequal) := by
  rw [Step.run.eq_def, h]
  unfold Machine.choose
  by_cases heq : next.value left = next.value right <;> simp [heq]

theorem runSteps_branch {machine next : Machine} {left right : Operand} {equal unequal : List Step}
    (h : machine.take engine limit (.branch left right equal unequal) = (.ok (), next)) (rest : List Step) :
    runSteps engine limit machine (.branch left right equal unequal :: rest) =
      runSteps engine limit next (next.choose left right equal unequal ++ rest) := by
  rcases hchosen : runSteps engine limit next (next.choose left right equal unequal) with ⟨_ | _ | crash, last⟩
  all_goals rw [runSteps_append, runSteps, run_branch h, hchosen]

/-- On the way to its end a run has the same outcome at every point. -/
theorem Advances.outcome_eq {c c' : Config} {taken : List Taken} (h : Advances engine limit c taken c') :
    c.outcome engine limit = c'.outcome engine limit := by
  induction h with
  | refl c => rfl
  | took hsimple htake _ ih =>
    rw [← ih]
    unfold Config.outcome
    rw [runSteps, run_of_isSimple hsimple htake]
  | chose htake _ ih =>
    rw [← ih]
    unfold Config.outcome
    rw [runSteps_branch htake]
  | finished htake _ ih =>
    rw [← ih]
    unfold Config.outcome
    rw [runSteps_finish htake]
    rfl

theorem Halts.outcome_eq {c : Config} {crash? : Option Crash} {last : Machine} (h : Halts engine limit c crash? last) :
    c.outcome engine limit = (crash?, last) := by
  cases h with
  | ended machine => rfl
  | crashed htake =>
    unfold Config.outcome
    rw [runSteps, run_of_crashed htake]
    rfl

/-- From every point of a run it gets to the same end. -/
theorem Advances.exists_end {c c' final : Config} {taken taken' : List Taken} {crash? : Option Crash} {last : Machine}
    (h : Advances engine limit c taken c') (hfinal : Advances engine limit c taken' final)
    (hhalts : Halts engine limit final crash? last) :
    ∃ more final', Advances engine limit c' more final' ∧ Halts engine limit final' crash? last := by
  obtain ⟨more, final', crash?', last', hfinal', hhalts'⟩ := exists_halts engine limit c'.machine c'.ahead
  -- The end that `c'` comes to is that of `c`, as both have the outcome of running the steps.
  have hsame : (crash?', last') = (crash?, last) := by
    rw [← hhalts'.outcome_eq, ← hhalts.outcome_eq, ← hfinal.outcome_eq, h.outcome_eq]
    exact hfinal'.outcome_eq.symm
  cases hsame
  exact ⟨more, final', hfinal', hhalts'⟩

theorem runFunction_eq_outcome (store : Store) (steps : List Step) :
    runFunction engine limit store steps = ((Config.outcome engine limit ⟨⟨store, fun _ => 0⟩, steps⟩).1,
      (Config.outcome engine limit ⟨⟨store, fun _ => 0⟩, steps⟩).2.toStore) := by
  unfold runFunction Config.outcome
  rcases runSteps engine limit ⟨store, fun _ => 0⟩ steps with ⟨_ | _ | crash, last⟩ <;> rfl

theorem Ran.runFunction_eq {store after : Store} {steps : List Step} {taken : List Taken} {crash? : Option Crash}
    (h : Ran engine limit store steps taken crash? after) :
    runFunction engine limit store steps = (crash?, after) := by
  obtain ⟨c, last, hadvances, hhalts, rfl⟩ := h
  rw [runFunction_eq_outcome, hadvances.outcome_eq, hhalts.outcome_eq]

theorem exists_ran (engine : Engine) (limit : MemoryLimit) (store : Store) (steps : List Step) :
    ∃ taken crash? after, Ran engine limit store steps taken crash? after := by
  obtain ⟨taken, c, crash?, last, hadvances, hhalts⟩ := exists_halts engine limit ⟨store, fun _ => 0⟩ steps
  exact ⟨taken, crash?, _, c, last, hadvances, hhalts, rfl⟩

/-- Running steps takes them until none lies ahead or one crashes. -/
theorem runFunction_eq_iff {store after : Store} {steps : List Step} {crash? : Option Crash} :
    runFunction engine limit store steps = (crash?, after) ↔
      ∃ taken, Ran engine limit store steps taken crash? after := by
  constructor
  · intro h
    obtain ⟨taken, crash?', after', hran⟩ := exists_ran engine limit store steps
    rw [hran.runFunction_eq] at h
    cases h
    exact ⟨taken, hran⟩
  · rintro ⟨taken, hran⟩
    exact hran.runFunction_eq

end RecordGate.Module
