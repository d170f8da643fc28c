import RecordGate.Host.Call
import RecordGate.Host.Memory
import RecordGate.Host.RecordPair

/-! # The host functions

A module reaches the host through eight functions that take raw numbers. Texts come as a length and a
pointer into the module's memory, and records are copied there. A call is checked argument by argument, in
order, before it changes anything. -/

namespace RecordGate.Host
open Json

/-- A call of a host function with its arguments, which are numbers of type `α`. -/
inductive HostRequest (α : Type) where
  | fetch (snapshot : Snapshot) (length pointer : α)
  | diagnostic (length pointer : α)
  | error (fieldLength fieldPointer messageLength messagePointer : α)
  | warn (fieldLength fieldPointer messageLength messagePointer : α)
  | setRequired (length pointer value : α)
  | setDisplay (length pointer value : α)
  | set (fieldLength fieldPointer valueLength valuePointer : α)

/-- The same call with other arguments. -/
def HostRequest.map {α β : Type} (f : α → β) : HostRequest α → HostRequest β
  | .fetch snapshot length pointer => .fetch snapshot (f length) (f pointer)
  | .diagnostic length pointer => .diagnostic (f length) (f pointer)
  | .error fl fp ml mp => .error (f fl) (f fp) (f ml) (f mp)
  | .warn fl fp ml mp => .warn (f fl) (f fp) (f ml) (f mp)
  | .setRequired length pointer value => .setRequired (f length) (f pointer) (f value)
  | .setDisplay length pointer value => .setDisplay (f length) (f pointer) (f value)
  | .set fl fp vl vp => .set (f fl) (f fp) (f vl) (f vp)

/-- Why a call fails. Ranges and texts are named by their argument. -/
inductive HostFault where
  | noMemory
  | range (argument : String) (fault : RangeFault)
  | notText (argument : String)
  | notJson (field : String)
  | tooLarge (argument : String)
  deriving DecidableEq

/-- The wording of the fault. -/
def HostFault.message : HostFault → String
  | .noMemory => "No memory export"
  | .range argument .negativeLength => argument ++ " length is less than zero"
  | .range argument .negativePointer => argument ++ " pointer is less than zero"
  | .range argument .outOfBounds => argument ++ " is out of bounds"
  | .notText argument => argument ++ " is invalid UTF-8"
  | .notJson field => "value for " ++ field ++ " was not valid JSON"
  | .tooLarge argument => argument ++ " is too large"

/-- What a run keeps on the side of the host: the memory of the module and whether the host can see it, the
    records, and the calls made so far. -/
structure HostState where
  memory : Memory
  exported : Bool
  records : RecordPair
  calls : List HostCall

/-- The state with one more call. -/
def HostState.record (s : HostState) (call : HostCall) : HostState :=
  { s with calls := s.calls ++ [call] }

/-- The range of an argument. -/
def Block.range (block : Block) (argument : String) (length pointer : Int32) : Except HostFault Range :=
  (Range.check block.size length pointer).mapError (.range argument)

/-- The text of an argument, whatever its bytes. -/
def Block.anyText (block : Block) (argument : String) (length pointer : Int32) : Except HostFault String := do
  let range ← block.range argument length pointer
  return Text.decodeLossy (block.slice range)

/-- The text of an argument, whose bytes have to be one. -/
def Block.text (block : Block) (argument : String) (length pointer : Int32) : Except HostFault String := do
  let range ← block.range argument length pointer
  match Text.decode? (block.slice range) with
  | some text => return text
  | none => .error (.notText argument)

/-! ### Actions of the host -/

/-- Something the host does on the state of a run, which may end with a fault. What was changed before the
    fault stays changed. -/
abbrev HostAction (α : Type) := ExceptT HostFault (StateM HostState) α

namespace HostAction

/-- The memory that the host can see. -/
def visibleMemory : HostAction Memory := do
  let s ← get
  if s.exported then return s.memory else throw .noMemory

/-- Keeps a call. -/
def record (call : HostCall) : HostAction (Option Int32) := do
  modify (·.record call)
  return none

/-- Serves a snapshot: gives its size, and copies it if the range can hold all of it. -/
def copy (memory : Memory) (snapshot : Snapshot) (length pointer : Int32) :
    HostAction (Option Int32) := do
  let range ← memory.range snapshot.name length pointer
  let bytes := (← get).records.bytes snapshot
  let size := Int32.ofNat bytes.length
  if 0x80000000 ≤ bytes.length then throw (.tooLarge snapshot.name)
  else if bytes.length ≤ range.length then
    modify fun s => { s with memory := s.memory.write range.start bytes }
    return some size
  else return some size

/-- What a call does, and its answer, if it has one. -/
def accept (request : HostRequest Int32) : HostAction (Option Int32) := do
  let memory ← visibleMemory
  match request with
  | .fetch snapshot length pointer => copy memory snapshot length pointer
  | .diagnostic length pointer =>
    let text ← memory.anyText "diagnostic" length pointer
    record (.diagnostic text)
  | .error fieldLength fieldPointer messageLength messagePointer =>
    let field ← memory.text "field" fieldLength fieldPointer
    let message ← memory.text "message" messageLength messagePointer
    record (.error field message)
  | .warn fieldLength fieldPointer messageLength messagePointer =>
    let field ← memory.text "field" fieldLength fieldPointer
    let message ← memory.text "message" messageLength messagePointer
    record (.warn field message)
  | .setRequired length pointer value =>
    let field ← memory.text "field" length pointer
    record (.setRequired field (value != 0))
  | .setDisplay length pointer value =>
    let field ← memory.text "field" length pointer
    record (.setDisplay field (value != 0))
  | .set fieldLength fieldPointer valueLength valuePointer =>
    let field ← memory.text "field" fieldLength fieldPointer
    let text ← memory.text "value" valueLength valuePointer
    match Json.parse (Text.bytes text) with
    | .ok value => record (.set field value)
    | .error _ => throw (.notJson field)

end HostAction

/-- Serves a call: its answer or fault, and the state that the call leaves. -/
def HostState.serve (s : HostState) (request : HostRequest Int32) :
    Except HostFault (Option Int32) × HostState :=
  (HostAction.accept request).run.run s

end RecordGate.Host
