import RecordGate.Module.Script

/-! # Engines

What modules run on. An engine compiles files into modules, takes fuel for what a module does, and says of an
error where in the module it came up. The host has no say in this, so whatever is shown of a run is shown for
every engine: nothing is known of one but that an endless loop takes fuel.

Fuel is taken for every step, but the engine does not have to look at it every time: a module that has used up
its fuel goes on until the engine looks. Fuel that is not there cannot be taken, and is not owed either. -/

namespace RecordGate.Module
open Host

/-- What is kept for a run: the host's side, and the fuel that is left. -/
structure Store where
  host : HostState
  fuel : Nat

/-- A module while it runs: what is kept for the run, and the slots of the function. -/
structure Machine extends Store where
  slots : Nat → Int32

/-- What modules run on. -/
structure Engine where
  /-- The module of a file, or why the file does not compile. -/
  compile : List UInt8 → Except String Module
  /-- The fuel that a step takes. -/
  cost : Machine → Step → Nat
  /-- Whether the engine looks at the fuel before it does a step. -/
  looks : Machine → Step → Bool
  /-- The fuel that each round of an endless loop takes. The engine looks at the fuel in every round. -/
  roundCost : Nat
  /-- A loop takes fuel, or else it would never end. -/
  roundCost_pos : 0 < roundCost
  /-- The number of calls that may be open at once. -/
  depth : Nat
  /-- What stands in front of the text of an error that comes up in a step: where it came up. -/
  place : Machine → Step → String

namespace Machine

/-- The machine when a step has taken its fuel. -/
def paid (machine : Machine) (engine : Engine) (step : Step) : Machine :=
  { machine with fuel := machine.fuel - engine.cost machine step }

/-- The engine looks at the fuel before a step, and none is left for it. -/
def Exhausted (machine : Machine) (engine : Engine) (step : Step) : Prop :=
  engine.looks machine step = true ∧ (machine.paid engine step).fuel = 0

instance (machine : Machine) (engine : Engine) (step : Step) : Decidable (machine.Exhausted engine step) :=
  inferInstanceAs (Decidable (_ ∧ _))

end Machine
end RecordGate.Module
