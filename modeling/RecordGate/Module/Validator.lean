import RecordGate.Host.StageError
import RecordGate.Module.Run

/-! # Validators

A validator is a loaded module. Each validation starts it afresh: its imports are matched with the host
functions, its memory is made and filled, its start function runs, and its entry is found and run. What
goes wrong before the entry runs is an error of that stage; what goes wrong afterwards is part of the
execution, with all calls made before. The start function and the entry share one supply of fuel. -/

namespace RecordGate.Module
open Host

/-- The limits of one validation: its fuel, and the bytes of memory. -/
structure Limits where
  fuel : Nat
  memoryBytes : Nat
  deriving DecidableEq

/-- The name under which every module exports its entry. -/
def requiredEntry : String := "validate"

/-- The name under which the host looks for the memory of a module. -/
def memoryName : String := "memory"

/-! ### Loading -/

/-- A module that compiles, under the name it is known by. -/
structure Validator where
  name : String
  module : Module

/-- Loads a module from the bytes of its file. -/
def Validator.load (engine : Engine) (name : String) (bytes : List UInt8) : Except StageError Validator :=
  match engine.compile bytes with
  | .ok module => .ok ⟨name, module⟩
  | .error text => .error (.load ("Failed to compile module '" ++ name ++ "': " ++ text))

/-! ### Imports -/

/-- The parameters and results of a host function. -/
def signature {α : Type} : HostRequest α → Nat × Nat
  | .fetch _ _ _ => (2, 1)
  | .diagnostic _ _ => (2, 0)
  | .error _ _ _ _ | .warn _ _ _ _ | .set _ _ _ _ => (4, 0)
  | .setRequired _ _ _ | .setDisplay _ _ _ => (3, 0)

/-- The host function that an import names. -/
def Import.hostSignature? (entry : Import) : Option (Nat × Nat) :=
  if entry.module = hostModule then (zeroRequest? entry.field).map signature else none

/-- A group of numbers in the text of a function type; an empty group is left out. -/
def groupText (name : String) (count : Nat) : String :=
  if count = 0 then ""
  else " (" ++ name ++ String.join (List.replicate count " i32") ++ ")"

/-- The text of a function type. -/
def functionText (type : Nat × Nat) : String :=
  "(func" ++ groupText "param" type.1 ++ groupText "result" type.2 ++ ")"

/-- Why the imports of a module cannot be provided. -/
inductive ImportError where
  | unknown (module field : String)
  | wrongFunction (module field : String) (expected found : Nat × Nat)
  | wrongKind (module field expected : String)
  deriving DecidableEq

/-- The wording of the error. -/
def ImportError.message : ImportError → String
  | .unknown module field => unknownImportMessage module field
  | .wrongFunction module field expected found =>
    "incompatible import type for `" ++ module ++ "::" ++ field ++
      "`: types incompatible: expected type `" ++ functionText expected ++ "`, found type `" ++
      functionText found ++ "`"
  | .wrongKind module field expected =>
    "incompatible import type for `" ++ module ++ "::" ++ field ++ "`: expected " ++ expected ++
      ", but found function"

/-- The type of an imported function. -/
def ImportKind.signature? : ImportKind → Option (Nat × Nat)
  | .function parameters results => some (parameters, results)
  | .global | .table => none

/-- The type of the function that the name of an import stands for: that of the host function or, as unknown
functions are provided all the same and trap when they are called, that of the first function imported under
the name. -/
def Import.provided? (imports : List Import) (entry : Import) : Option (Nat × Nat) :=
  entry.hostSignature? <|>
    (imports.filter fun other => other.module = entry.module ∧ other.field = entry.field).findSome?
      (·.kind.signature?)

/-- An import whose name stands for nothing. -/
def Import.unknown? (imports : List Import) (entry : Import) : Option ImportError :=
  if (entry.provided? imports).isNone then some (.unknown entry.module entry.field) else none

/-- An import of a provided function as something else. -/
def Import.mismatch? (imports : List Import) (entry : Import) : Option ImportError :=
  match entry.provided? imports, entry.kind with
  | some found, .function parameters results =>
    if found = (parameters, results) then none
    else some (.wrongFunction entry.module entry.field (parameters, results) found)
  | some _, .global => some (.wrongKind entry.module entry.field "global")
  | some _, .table => some (.wrongKind entry.module entry.field "table")
  | none, _ => none

/-- What is wrong with the imports: first what is unknown, then what does not match. -/
def importError? (imports : List Import) : Option ImportError :=
  imports.findSome? (Import.unknown? imports) <|> imports.findSome? (Import.mismatch? imports)

/-! ### Instances -/

/-- The limit of the memory of a module. -/
def memoryLimit (module : Module) (limits : Limits) : MemoryLimit where
  bytes := limits.memoryBytes
  pages := ((module.memory.bind (·.maximum)).getD mostPages).min mostPages

/-- The memory of a module before data is put into it. -/
def emptyMemory (module : Module) (limits : Limits) : Except String Memory :=
  match module.memory with
  | none => .ok (.zeros 0)
  | some declaration =>
    if (module.memoryLimit limits).Allows declaration.pages then .ok (.zeros declaration.pages)
    else .error (Trap.growth (declaration.pages * pageSize)).message

/-- Puts data into memory. -/
def fillMemory (memory : Memory) : List (UInt32 × List UInt8) → Except String Memory
  | [] => .ok memory
  | (offset, bytes) :: rest =>
    if memory.size < offset.toNat + bytes.length then .error Trap.outOfBounds.message
    else fillMemory (memory.write offset.toNat bytes) rest

/-- The steps that are run when a module starts: none if it has no start function. -/
def startSteps (module : Module) : List Step :=
  match module.start with
  | none => []
  | some steps => .enter :: steps

/-- Instantiates a module: what is kept for the run after its start function. -/
def instantiate (module : Module) (engine : Engine) (limits : Limits) (records : RecordPair) :
    Except StageError Store := do
  if let some error := importError? module.imports then
    throw (.instantiate error.message)
  let memory ← (module.emptyMemory limits).mapError .instantiate
  let memory ← (fillMemory memory module.data).mapError .instantiate
  let exported := module.memory.any fun declaration => declaration.exportName = some memoryName
  let store : Store := ⟨⟨memory, exported, records, []⟩, limits.fuel⟩
  match runFunction engine (module.memoryLimit limits) store module.startSteps with
  | (some crash, _) => throw (.instantiate crash.message)
  | (none, store) => return store

/-- The steps of the entry of a module. -/
def entrySteps (module : Module) : Except StageError (List Step) :=
  let missing := StageError.missingEntry ("failed to find function export `" ++ requiredEntry ++ "`")
  if module.entryName ≠ requiredEntry then .error missing
  else
    match module.entry with
    | .function steps => .ok steps
    | .otherFunction =>
      .error (.missingEntry ("failed to convert function `" ++ requiredEntry ++ "` to given type"))
    | .noFunction | .missing => .error missing

/-- The reason that an execution gives for a crash. A trap of the engine itself is told without its place. -/
def Crash.reason (crash : Crash) : String :=
  match crash.trap with
  | .outOfFuel => "fuel exhausted"
  | trap => if trap.isOwn then trap.message else crash.message

/-- The execution that ends with a crash, or without one. The fuel that is not left has been consumed. -/
def execution (limits : Limits) (crash? : Option Crash) (store : Store) : Execution where
  status := match crash? with
    | none => .completed
    | some crash => .aborted crash.reason
  report := ⟨store.host.calls⟩
  fuelConsumed := limits.fuel - store.fuel

/-- Validates a pair of records. -/
def Validator.validate (validator : Validator) (engine : Engine) (limits : Limits) (records : RecordPair) :
    Except StageError Execution := do
  let store ← validator.module.instantiate engine limits records
  let steps ← validator.module.entrySteps
  let (crash?, store) := runFunction engine (validator.module.memoryLimit limits) store (.enter :: steps)
  return execution limits crash? store

end RecordGate.Module
