import RecordGate.Module.Validator
import RecordGate.Proofs.Except
import RecordGate.Proofs.Host.Serving

/-! # What one step does

A step takes its fuel first. One that then goes on has one of three effects: it makes a request that the host
serves, it is granted more memory, or it works on the slots and on the memory that is there (`take_effect`). It
takes no more fuel for that (`Effect.fuel_eq`). A step that crashes changes nothing but the fuel (`take_crashed`),
so all that a run does, it does in the steps before its crash; and where the fuel was too little, nothing of it is
left. -/

namespace RecordGate.Module
open Host

/-- The request that a step makes of the host, if it makes one. -/
def Step.request? (machine : Machine) : Step → Option (HostRequest Int32)
  | .host request _ => some (request.map machine.value)
  | .callImport module field => if module = hostModule then zeroRequest? field else none
  | _ => none

/-- What a step that goes on makes of a machine. -/
inductive Effect (limit : MemoryLimit) (machine : Machine) : Step → Machine → Prop where
  /-- The host serves a request. -/
  | asked {step : Step} {request : HostRequest Int32} {answer : Option Int32} {next : Machine} :
      step.request? machine = some request → machine.host.serve request = (.ok answer, next.host) →
      next.fuel = machine.fuel → Effect limit machine step next
  /-- The memory grows, and the answer is the number of pages that it had. -/
  | grown {pages : Operand} {into : Option Nat} :
      machine.unsigned pages = 0 ∨ limit.Allows (machine.host.memory.pages + machine.unsigned pages) →
      Effect limit machine (.grow pages into)
        ((machine.withMemory (machine.host.memory.grow (machine.unsigned pages))).put into
          (Int32.ofNat machine.host.memory.pages))
  /-- The module works on its slots and on the memory that it has. -/
  | inside {step : Step} {memory : Memory} {next : Machine} :
      step.request? machine = none → (∀ pages into, step ≠ .grow pages into) →
      memory.pages = machine.host.memory.pages → next.host = { machine.host with memory := memory } →
      next.fuel = machine.fuel → Effect limit machine step next

/-- What a trap leaves of a machine: everything but the fuel, and no fuel at all if it was too little. -/
structure Spared (machine : Machine) (trap : Trap) (next : Machine) : Prop where
  host : next.host = machine.host
  slots : next.slots = machine.slots
  fuel_le : next.fuel ≤ machine.fuel
  fuel_eq_zero : trap = .outOfFuel → next.fuel = 0

variable {engine : Engine} {limit : MemoryLimit} {machine next : Machine} {step : Step} {trap : Trap}

theorem Spared.of_eq (h : next = machine) (htrap : trap ≠ .outOfFuel) : Spared machine trap next :=
  ⟨by rw [h], by rw [h], Nat.le_of_eq (by rw [h]), fun hfuel => absurd hfuel htrap⟩

/-! ### Fuel -/

@[simp] theorem Machine.paid_host (machine : Machine) (engine : Engine) (step : Step) :
    (machine.paid engine step).host = machine.host := rfl

@[simp] theorem Machine.paid_slots (machine : Machine) (engine : Engine) (step : Step) :
    (machine.paid engine step).slots = machine.slots := rfl

theorem Machine.paid_fuel_le (machine : Machine) (engine : Engine) (step : Step) :
    (machine.paid engine step).fuel ≤ machine.fuel :=
  Nat.sub_le ..

/-- A loop that does not end takes all the fuel there is. -/
theorem Machine.spin_eq (machine : Machine) (engine : Engine) :
    machine.spin engine = (.error .outOfFuel, { machine with fuel := 0 }) := by
  fun_induction Machine.spin machine engine with
  | case1 machine next hout =>
    have hnext : next = { machine with fuel := 0 } := by rw [← hout]
    rw [hnext]
  | case2 machine next hleft ih => exact ih

/-- What is spared by a trap after the fuel for a step was taken is spared by the step too. -/
theorem Spared.of_paid (h : Spared (machine.paid engine step) trap next) : Spared machine trap next :=
  ⟨h.host, h.slots, Nat.le_trans h.fuel_le (machine.paid_fuel_le ..), h.fuel_eq_zero⟩

/-- Calls that do not end run out of fuel or of room, whatever there is of both. -/
theorem Machine.recurse_trapped (machine : Machine) (engine : Engine) (room : Nat) :
    ∃ trap next, machine.recurse engine room = (.error trap, next) ∧ Spared machine trap next := by
  induction room generalizing machine with
  | zero => exact ⟨_, _, rfl, .of_eq rfl nofun⟩
  | succ room ih =>
    rw [recurse]
    split
    · next hexhausted => exact ⟨_, _, rfl, rfl, rfl, machine.paid_fuel_le .., fun _ => hexhausted.2⟩
    · obtain ⟨trap, next, hrecurse, hspared⟩ := ih (machine.paid engine .enter)
      exact ⟨trap, next, hrecurse, hspared.of_paid⟩

/-! ### The parts of a step -/

theorem Machine.put_host (machine : Machine) (into : Option Nat) (value : Int32) :
    (machine.put into value).host = machine.host := by
  cases into <;> rfl

theorem Machine.put_fuel (machine : Machine) (into : Option Nat) (value : Int32) :
    (machine.put into value).fuel = machine.fuel := by
  cases into <;> rfl

theorem Machine.callHost_ok {request : HostRequest Int32} {into : Option Nat}
    (h : machine.callHost request into = (.ok (), next)) :
    (∃ answer, machine.host.serve request = (.ok answer, next.host)) ∧ next.fuel = machine.fuel := by
  unfold callHost at h
  rcases hserve : machine.host.serve request with ⟨fault | _ | answer, host⟩
  · rw [hserve] at h
    cases h
  · rw [hserve] at h
    cases h
    exact ⟨⟨none, rfl⟩, rfl⟩
  · rw [hserve] at h
    cases h
    exact ⟨⟨some answer, by rw [put_host]⟩, by rw [put_fuel]⟩

theorem Machine.callHost_trapped {request : HostRequest Int32} {into : Option Nat}
    (h : machine.callHost request into = (.error trap, next)) : Spared machine trap next := by
  unfold callHost at h
  rcases machine.host.serve_cases request with ⟨fault, hserve⟩ | ⟨_ | answer, host, hserve, -⟩
  · rw [hserve] at h
    cases h
    exact .of_eq rfl nofun
  · rw [hserve] at h
    cases h
  · rw [hserve] at h
    cases h

theorem Machine.compute_ok {result : Except Trap Machine} (h : machine.compute result = (.ok (), next)) :
    result = .ok next := by
  cases result with
  | error trap => cases h
  | ok changed =>
    cases h
    rfl

theorem Machine.compute_trapped {result : Except Trap Machine} (h : machine.compute result = (.error trap, next))
    (hresult : result ≠ .error .outOfFuel) : Spared machine trap next := by
  cases result with
  | error trap =>
    cases h
    exact .of_eq rfl fun htrap => hresult (by rw [htrap])
  | ok changed => cases h

/-- What follows a check of a range runs out of fuel only if what comes behind it does. -/
theorem Machine.range_bind_ne {α : Type} {address length : Nat} {rest : Range → Except Trap α}
    (hrest : ∀ range, rest range ≠ .error .outOfFuel) :
    machine.range address length >>= rest ≠ .error .outOfFuel := by
  unfold range
  split
  · exact nofun
  · exact hrest _

theorem quotient_ne (left right : Int32) : quotient left right ≠ .error .outOfFuel := by
  unfold quotient
  split
  · exact nofun
  split
  · exact nofun
  · exact nofun

theorem Machine.write_ok {address : Nat} {bytes : List UInt8} (h : machine.write address bytes = .ok next) :
    ∃ memory, next = machine.withMemory memory ∧ memory.pages = machine.host.memory.pages := by
  obtain ⟨range, -, h⟩ := bind_eq_ok.mp h
  cases h
  exact ⟨_, rfl, rfl⟩

theorem Machine.copy_ok {target source length : Nat} (h : machine.copy target source length = .ok next) :
    ∃ memory, next = machine.withMemory memory ∧ memory.pages = machine.host.memory.pages := by
  obtain ⟨source, -, h⟩ := bind_eq_ok.mp h
  obtain ⟨target, -, h⟩ := bind_eq_ok.mp h
  cases h
  exact ⟨_, rfl, rfl⟩

theorem Machine.grow_ok {pages : Nat} {into : Option Nat} (h : machine.grow limit pages into = (.ok (), next)) :
    (pages = 0 ∨ limit.Allows (machine.host.memory.pages + pages)) ∧
      next = (machine.withMemory (machine.host.memory.grow pages)).put into
        (Int32.ofNat machine.host.memory.pages) := by
  unfold grow at h
  dsimp only at h
  split at h
  · next hallowed =>
    cases h
    exact ⟨hallowed, rfl⟩
  · cases h

theorem Machine.grow_trapped {pages : Nat} {into : Option Nat}
    (h : machine.grow limit pages into = (.error trap, next)) :
    Spared machine trap next := by
  unfold grow at h
  dsimp only at h
  split at h
  · cases h
  · cases h
    exact .of_eq rfl nofun

/-! ### Steps -/

theorem Effect.of_host (hrequest : step.request? machine = none) (hgrow : ∀ pages into, step ≠ .grow pages into)
    (hhost : next.host = machine.host) (hfuel : next.fuel = machine.fuel) : Effect limit machine step next :=
  .inside hrequest hgrow rfl hhost hfuel

/-- All the fuel of a step is taken before it is done. -/
theorem Effect.fuel_eq (h : Effect limit machine step next) : next.fuel = machine.fuel := by
  cases h with
  | asked _ _ hfuel => exact hfuel
  | grown hallowed => exact Machine.put_fuel ..
  | inside _ _ _ _ hfuel => exact hfuel

/-- A step that goes on has an effect. -/
theorem perform_effect (h : machine.perform engine limit step = (.ok (), next)) :
    Effect limit machine step next := by
  cases step with
  | enter =>
    cases h
    exact .of_host rfl nofun rfl rfl
  | host request into =>
    obtain ⟨⟨answer, hserve⟩, hfuel⟩ := Machine.callHost_ok h
    exact .asked rfl hserve hfuel
  | callImport module field =>
    simp only [Machine.perform] at h
    split at h
    · next request hrequest =>
      obtain ⟨⟨answer, hserve⟩, hfuel⟩ := Machine.callHost_ok h
      exact .asked hrequest hserve hfuel
    · cases h
  | grow pages into =>
    obtain ⟨hallowed, rfl⟩ := Machine.grow_ok h
    exact .grown hallowed
  | size into =>
    cases h
    exact .of_host rfl nofun (Machine.put_host ..) (Machine.put_fuel ..)
  | store address value =>
    obtain ⟨memory, rfl, hpages⟩ := Machine.write_ok (Machine.compute_ok h)
    exact .inside rfl nofun hpages rfl rfl
  | storeByte address value =>
    obtain ⟨memory, rfl, hpages⟩ := Machine.write_ok (Machine.compute_ok h)
    exact .inside rfl nofun hpages rfl rfl
  | load address into =>
    obtain ⟨range, -, h⟩ := bind_eq_ok.mp (Machine.compute_ok h)
    cases h
    exact .of_host rfl nofun (Machine.put_host ..) (Machine.put_fuel ..)
  | copy target source length =>
    obtain ⟨memory, rfl, hpages⟩ := Machine.copy_ok (Machine.compute_ok h)
    exact .inside rfl nofun hpages rfl rfl
  | add left right into =>
    cases h
    exact .of_host rfl nofun (Machine.put_host ..) (Machine.put_fuel ..)
  | divide left right into =>
    obtain ⟨value, -, h⟩ := bind_eq_ok.mp (Machine.compute_ok h)
    cases h
    exact .of_host rfl nofun (Machine.put_host ..) (Machine.put_fuel ..)
  | branch left right equal unequal =>
    cases h
    exact .of_host rfl nofun rfl rfl
  | finish =>
    cases h
    exact .of_host rfl nofun rfl rfl
  | trap => cases h
  | spin =>
    rw [Machine.perform, Machine.spin_eq] at h
    cases h
  | recurse =>
    obtain ⟨trap, last, hrecurse, -⟩ := machine.recurse_trapped engine engine.depth
    rw [Machine.perform, hrecurse] at h
    cases h

theorem perform_trapped (h : machine.perform engine limit step = (.error trap, next)) :
    Spared machine trap next := by
  cases step with
  | host request into => exact Machine.callHost_trapped h
  | callImport module field =>
    simp only [Machine.perform] at h
    split at h
    · exact Machine.callHost_trapped h
    · cases h
      exact .of_eq rfl nofun
  | grow pages into => exact Machine.grow_trapped h
  | store address value => exact Machine.compute_trapped h (Machine.range_bind_ne nofun)
  | storeByte address value => exact Machine.compute_trapped h (Machine.range_bind_ne nofun)
  | load address into => exact Machine.compute_trapped h (Machine.range_bind_ne nofun)
  | copy target source length =>
    exact Machine.compute_trapped h (Machine.range_bind_ne fun _ => Machine.range_bind_ne nofun)
  | divide left right into =>
    refine Machine.compute_trapped h fun hresult => ?_
    rcases bind_eq_error.mp hresult with hquotient | ⟨value, -, hvalue⟩
    · exact quotient_ne _ _ hquotient
    · cases hvalue
  | spin =>
    rw [Machine.perform, Machine.spin_eq] at h
    cases h
    exact ⟨rfl, rfl, Nat.zero_le _, fun _ => rfl⟩
  | recurse =>
    obtain ⟨trap', last, hrecurse, hspared⟩ := machine.recurse_trapped engine engine.depth
    rw [Machine.perform, hrecurse] at h
    cases h
    exact hspared
  | trap =>
    cases h
    exact .of_eq rfl nofun
  | enter => cases h
  | size into => cases h
  | add left right into => cases h
  | branch left right equal unequal => cases h
  | finish => cases h

/-! ### The whole step -/

/-- A step that goes on has taken its fuel and was then done. -/
theorem take_eq_ok_iff : machine.take engine limit step = (.ok (), next) ↔
    ¬machine.Exhausted engine step ∧ (machine.paid engine step).perform engine limit step = (.ok (), next) := by
  unfold Machine.take
  by_cases hpaid : machine.Exhausted engine step
  · simp [hpaid]
  · rcases hperform : (machine.paid engine step).perform engine limit step with ⟨trap | _, last⟩ <;>
      simp [hpaid]

/-- A step crashes for want of fuel, or it was done and trapped. -/
theorem take_eq_error_iff {crash : Crash} : machine.take engine limit step = (.error crash, next) ↔
    (machine.Exhausted engine step ∧ ⟨engine.place machine step, .outOfFuel⟩ = crash ∧
      machine.paid engine step = next) ∨
    (¬machine.Exhausted engine step ∧ ∃ trap, ⟨engine.place machine step, trap⟩ = crash ∧
      (machine.paid engine step).perform engine limit step = (.error trap, next)) := by
  unfold Machine.take
  by_cases hpaid : machine.Exhausted engine step
  · simp [hpaid]
  · rcases hperform : (machine.paid engine step).perform engine limit step with ⟨trap | _, last⟩
    · simp only [hpaid, if_false, false_and, false_or, not_false_eq_true, true_and, Prod.mk.injEq, Except.error.injEq]
      exact ⟨fun ⟨hcrash, hlast⟩ => ⟨trap, hcrash, rfl, hlast⟩, fun ⟨_, hcrash, rfl, hlast⟩ => ⟨hcrash, hlast⟩⟩
    · simp [hpaid]

/-- A step that goes on has an effect, once it has taken its fuel. -/
theorem take_effect (h : machine.take engine limit step = (.ok (), next)) :
    Effect limit (machine.paid engine step) step next :=
  perform_effect (take_eq_ok_iff.mp h).2

theorem take_fuel_le (h : machine.take engine limit step = (.ok (), next)) : next.fuel ≤ machine.fuel :=
  Nat.le_trans (Nat.le_of_eq (take_effect h).fuel_eq) (machine.paid_fuel_le ..)

/-- A step that crashes leaves everything but the fuel as it was. -/
theorem take_crashed {crash : Crash} (h : machine.take engine limit step = (.error crash, next)) :
    Spared machine crash.trap next := by
  rcases take_eq_error_iff.mp h with ⟨hexhausted, rfl, rfl⟩ | ⟨-, trap, rfl, hperform⟩
  · exact ⟨rfl, rfl, machine.paid_fuel_le .., fun _ => hexhausted.2⟩
  · exact (perform_trapped hperform).of_paid

end RecordGate.Module
