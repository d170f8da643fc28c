import RecordGate.Module.Engine

/-! # Running steps

Steps run one after the other until one returns or traps. Whatever a step did before the trap of a later one
stays done, so the calls that the host has recorded are those of the steps before the first that fails. A step
takes its fuel first and is not done at all if the engine finds that the fuel has run out. -/

namespace RecordGate.Module
open Host

/-- Why a module is stopped. -/
inductive Trap where
  | host (fault : HostFault)
  | unknownImport (module field : String)
  | outOfBounds
  | divideByZero
  | overflow
  | unreachable
  | outOfStack
  | outOfFuel
  /-- Memory was to grow to so many bytes, which is too much. -/
  | growth (bytes : Nat)
  deriving DecidableEq

/-- The wording for an import that the host does not have. -/
def unknownImportMessage (module field : String) : String :=
  "unknown import: `" ++ module ++ "::" ++ field ++ "` has not been defined"

/-- The wording of a trap. -/
def Trap.message : Trap → String
  | .host fault => fault.message
  | .unknownImport module field => unknownImportMessage module field
  | .outOfBounds => "wasm trap: out of bounds memory access"
  | .divideByZero => "wasm trap: integer divide by zero"
  | .overflow => "wasm trap: integer overflow"
  | .unreachable => "wasm trap: wasm `unreachable` instruction executed"
  | .outOfStack => "wasm trap: call stack exhausted"
  | .outOfFuel => "wasm trap: all fuel consumed by WebAssembly"
  | .growth bytes => "forcing trap when growing memory to " ++ toString bytes ++ " bytes"

/-- A trap of the engine itself. Any other one is an error of the host. -/
def Trap.isOwn : Trap → Bool
  | .host _ | .unknownImport _ _ | .growth _ => false
  | .outOfBounds | .divideByZero | .overflow | .unreachable | .outOfStack | .outOfFuel => true

/-- The end of a run by a trap, and where the engine says that the trap came up. -/
structure Crash where
  place : String
  trap : Trap
  deriving DecidableEq

/-- The whole wording: the place, and what happened there. -/
def Crash.message (crash : Crash) : String :=
  crash.place ++ crash.trap.message

/-- What limits the memory of a module: the bytes that the host allows and the pages it declares. -/
structure MemoryLimit where
  bytes : Nat
  pages : Nat

/-- The limit allows a memory of so many pages. -/
def MemoryLimit.Allows (limit : MemoryLimit) (pages : Nat) : Prop :=
  pages * pageSize ≤ limit.bytes ∧ pages ≤ limit.pages

instance (limit : MemoryLimit) (pages : Nat) : Decidable (limit.Allows pages) :=
  inferInstanceAs (Decidable (_ ∧ _))

/-- How a sequence of steps goes on. -/
inductive Flow where
  | next
  | returned
  | crashed (crash : Crash)
  deriving DecidableEq

namespace Machine

/-- The number an operand stands for. -/
def value (machine : Machine) : Operand → Int32
  | .const value => value
  | .slot index => machine.slots index

/-- The number an operand stands for, as an address or a size. -/
def unsigned (machine : Machine) (operand : Operand) : Nat :=
  (machine.value operand).toUInt32.toNat

/-- Puts a result into a slot, if it is wanted. -/
def put (machine : Machine) (into : Option Nat) (value : Int32) : Machine :=
  match into with
  | none => machine
  | some index => { machine with slots := fun i => if i = index then value else machine.slots i }

/-- The machine with other contents of its memory. -/
def withMemory (machine : Machine) (memory : Memory) : Machine :=
  { machine with host := { machine.host with memory := memory } }

/-- The range of memory that an access touches. -/
def range (machine : Machine) (address length : Nat) : Except Trap Range :=
  if machine.host.memory.size < address + length then .error .outOfBounds else .ok ⟨address, length⟩

end Machine

/-- The four bytes of a number, the lowest first. -/
def numberBytes (n : Int32) : List UInt8 :=
  let n := n.toUInt32
  [n.toUInt8, (n >>> 8).toUInt8, (n >>> 16).toUInt8, (n >>> 24).toUInt8]

/-- The number of four bytes, the lowest first. -/
def bytesNumber (bytes : List UInt8) : Int32 :=
  let n : UInt32 := bytes.foldr (fun b n => n <<< 8 ||| b.toUInt32) 0
  n.toInt32

/-- The call with zeros of the host function of a name. -/
def zeroRequest? (field : String) : Option (HostRequest Int32) :=
  match field with
  | "data" => some (.fetch .current 0 0)
  | "previous_data" => some (.fetch .previous 0 0)
  | "diagnostic" => some (.diagnostic 0 0)
  | "error" => some (.error 0 0 0 0)
  | "warn" => some (.warn 0 0 0 0)
  | "set_required" => some (.setRequired 0 0 0)
  | "set_display" => some (.setDisplay 0 0 0)
  | "set" => some (.set 0 0 0 0)
  | _ => none

/-- The module name of all host functions. -/
def hostModule : String := "reso"

/-- Calls a host function. -/
def Machine.callHost (machine : Machine) (request : HostRequest Int32) (into : Option Nat) :
    Except Trap Unit × Machine :=
  match machine.host.serve request with
  | (.ok (some answer), host) => (.ok (), { machine with host := host }.put into answer)
  | (.ok none, host) => (.ok (), { machine with host := host })
  | (.error fault, host) => (.error (.host fault), { machine with host := host })

/-- Grows the memory, or traps with the size that is too great. Growth by nothing is always allowed. -/
def Machine.grow (machine : Machine) (limit : MemoryLimit) (pages : Nat) (into : Option Nat) :
    Except Trap Unit × Machine :=
  let memory := machine.host.memory
  if pages = 0 ∨ limit.Allows (memory.pages + pages) then
    (.ok (), (machine.withMemory (memory.grow pages)).put into (Int32.ofNat memory.pages))
  else (.error (.growth ((memory.pages + pages) * pageSize)), machine)

/-- Does a step that changes nothing but the memory or a slot. -/
def Machine.compute (machine : Machine) (result : Except Trap Machine) : Except Trap Unit × Machine :=
  match result with
  | .ok machine => (.ok (), machine)
  | .error trap => (.error trap, machine)

/-- Writes bytes to memory. -/
def Machine.write (machine : Machine) (address : Nat) (bytes : List UInt8) : Except Trap Machine := do
  let range ← machine.range address bytes.length
  return machine.withMemory (machine.host.memory.write range.start bytes)

/-- Copies a range of memory. -/
def Machine.copy (machine : Machine) (target source length : Nat) : Except Trap Machine := do
  let source ← machine.range source length
  let target ← machine.range target length
  let memory := machine.host.memory
  return machine.withMemory (memory.put target.start length fun i => memory.byte (source.start + i))

/-- The quotient of two numbers, rounded toward zero. -/
def quotient (left right : Int32) : Except Trap Int32 :=
  if right = 0 then .error .divideByZero
  else if left = Int32.minValue ∧ right = -1 then .error .overflow
  else .ok (left / right)

/-- Goes round a loop until the fuel has run out. -/
def Machine.spin (machine : Machine) (engine : Engine) : Except Trap Unit × Machine :=
  let next : Machine := { machine with fuel := machine.fuel - engine.roundCost }
  if next.fuel = 0 then (.error .outOfFuel, next) else next.spin engine
termination_by machine.fuel
decreasing_by
  have hround := engine.roundCost_pos
  have hleft : machine.fuel - engine.roundCost ≠ 0 := ‹_›
  show machine.fuel - engine.roundCost < machine.fuel
  omega

/-- Enters a function within a function, until the fuel or the room for calls has run out. -/
def Machine.recurse (machine : Machine) (engine : Engine) : Nat → Except Trap Unit × Machine
  | 0 => (.error .outOfStack, machine)
  | room + 1 =>
    if machine.Exhausted engine .enter then (.error .outOfFuel, machine.paid engine .enter)
    else (machine.paid engine .enter).recurse engine room

/-- Does a step for which fuel has been taken. What a branch and the end of a function have to do is done by the
run itself. -/
def Machine.perform (machine : Machine) (engine : Engine) (limit : MemoryLimit) : Step → Except Trap Unit × Machine
  | .host request into => machine.callHost (request.map machine.value) into
  | .callImport module field =>
    match if module = hostModule then zeroRequest? field else none with
    | some request => machine.callHost request none
    | none => (.error (.unknownImport module field), machine)
  | .grow pages into => machine.grow limit (machine.unsigned pages) into
  | .size into => (.ok (), machine.put into (Int32.ofNat machine.host.memory.pages))
  | .store address value =>
    machine.compute (machine.write (machine.unsigned address) (numberBytes (machine.value value)))
  | .storeByte address value =>
    machine.compute
      (machine.write (machine.unsigned address) [(machine.value value).toUInt32.toUInt8])
  | .load address into =>
    machine.compute <| do
      let range ← machine.range (machine.unsigned address) 4
      return machine.put into (bytesNumber (machine.host.memory.slice range))
  | .copy target source length =>
    machine.compute
      (machine.copy (machine.unsigned target) (machine.unsigned source) (machine.unsigned length))
  | .add left right into => (.ok (), machine.put into (machine.value left + machine.value right))
  | .divide left right into =>
    machine.compute <| do
      return machine.put into (← quotient (machine.value left) (machine.value right))
  | .trap => (.error .unreachable, machine)
  | .spin => machine.spin engine
  | .recurse => machine.recurse engine engine.depth
  | .enter | .branch _ _ _ _ | .finish => (.ok (), machine)

/-- Takes a step: its fuel, and then what it does. -/
def Machine.take (machine : Machine) (engine : Engine) (limit : MemoryLimit) (step : Step) :
    Except Crash Unit × Machine :=
  if machine.Exhausted engine step then
    (.error ⟨engine.place machine step, .outOfFuel⟩, machine.paid engine step)
  else
    match (machine.paid engine step).perform engine limit step with
    | (.ok (), next) => (.ok (), next)
    | (.error trap, next) => (.error ⟨engine.place machine step, trap⟩, next)

mutual
/-- Runs one step. -/
def Step.run (engine : Engine) (limit : MemoryLimit) (machine : Machine) (step : Step) : Flow × Machine :=
  match machine.take engine limit step with
  | (.error crash, machine) => (.crashed crash, machine)
  | (.ok (), machine) =>
    match step with
    | .branch left right equal unequal =>
      if machine.value left = machine.value right then runSteps engine limit machine equal
      else runSteps engine limit machine unequal
    | .finish => (.returned, machine)
    | _ => (.next, machine)

/-- Runs steps in order until one returns or traps. -/
def runSteps (engine : Engine) (limit : MemoryLimit) (machine : Machine) : List Step → Flow × Machine
  | [] => (.next, machine)
  | step :: rest =>
    match step.run engine limit machine with
    | (.next, machine) => runSteps engine limit machine rest
    | stopped => stopped
end

/-- Runs steps from empty slots: what is kept afterwards, and the crash that stopped them, if any. -/
def runFunction (engine : Engine) (limit : MemoryLimit) (store : Store) (steps : List Step) :
    Option Crash × Store :=
  match runSteps engine limit ⟨store, fun _ => 0⟩ steps with
  | (.crashed crash, machine) => (some crash, machine.toStore)
  | (_, machine) => (none, machine.toStore)

end RecordGate.Module
