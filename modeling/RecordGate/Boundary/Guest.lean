import RecordGate.Boundary.Basic
import RecordGate.Host.Functions

/-! # The boundary through linear memory

A guest inside a module has its texts and buffers in linear memory and passes lengths and addresses to the
host functions. Where it keeps them is its own business: a `Placement` may do anything to the memory before
a call, as long as the arguments lie where it says and nothing that the guest keeps is in the way of a
record (`Placement.Sound`). A call that fails ends the guest, so nothing happens after it. -/

namespace RecordGate
open Host

/-- The texts that a message passes, in order. -/
def Message.texts : Message → List (List UInt8)
  | .diagnostic text => [Text.bytes text]
  | .error field message | .warn field message => [Text.bytes field, Text.bytes message]
  | .setRequired field _ | .setDisplay field _ => [Text.bytes field]
  | .set field value => [Text.bytes field, value]

/-- The call that sends a message, with the length and the address of each of its texts. -/
def Message.request (length address : Nat → Int32) : Message → HostRequest Int32
  | .diagnostic _ => .diagnostic (length 0) (address 0)
  | .error _ _ => .error (length 0) (address 0) (length 1) (address 1)
  | .warn _ _ => .warn (length 0) (address 0) (length 1) (address 1)
  | .setRequired _ flag => .setRequired (length 0) (address 0) flag
  | .setDisplay _ flag => .setDisplay (length 0) (address 0) flag
  | .set _ _ => .set (length 0) (address 0) (length 1) (address 1)

/-- What a guest does to its memory before a call, which depends on the number of calls before. -/
structure Placement where
  /-- Lays out the texts of a call, and gives their addresses. -/
  texts : Nat → List (List UInt8) → Host.Memory → Host.Memory × List Nat
  /-- Lays out a buffer of a length with bytes in it, and gives its address. -/
  buffer : Nat → Nat → (Nat → UInt8) → Host.Memory → Host.Memory × Nat

/-- What the guest keeps in its memory outlasts every call that serves one of the records or sends one of
    the messages, and the arguments of the call lie where the placement says. -/
structure Placement.Keeps (placement : Placement) (kept : Host.Memory → Prop) (records : RecordPair)
    (messages : List Message) : Prop where
  texts : ∀ calls memory, kept memory → ∀ message ∈ messages,
    kept (placement.texts calls message.texts memory).1 ∧ ∀ i < message.texts.length,
      (placement.texts calls message.texts memory).1.Holds
        ((placement.texts calls message.texts memory).2.getD i 0) (message.texts.getD i [])
  /-- The buffer has nothing of what is kept in it, so that anything may be written there. -/
  buffer : ∀ calls memory, kept memory → ∀ snapshot content, records.bytes snapshot ≠ [] →
    let (after, address) := placement.buffer calls (records.bytes snapshot).length content memory
    after.Spans address (records.bytes snapshot).length ∧
      ∀ written : List UInt8, written.length = (records.bytes snapshot).length →
        kept (after.write address written)

/-- There is something that the guest can keep, from the memory at its start on. -/
def Placement.Sound (placement : Placement) (memory : Host.Memory) (records : RecordPair)
    (messages : List Message) : Prop :=
  ∃ kept, kept memory ∧ placement.Keeps kept records messages

/-- A guest: the host it runs on, the calls it made, and the fault that ended it. -/
structure Guest where
  host : HostState
  calls : Nat
  fault? : Option HostFault

namespace Guest

/-- A guest at its start. -/
def start (host : HostState) : Guest :=
  ⟨host, 0, none⟩

/-- A guest at its start in a module that exports its memory, on a host with records to serve. -/
def link (memory : Host.Memory) (records : RecordPair) : Guest :=
  start ⟨memory, true, records, []⟩

/-- The guest with other contents of its memory. -/
def withMemory (guest : Guest) (memory : Host.Memory) : Guest :=
  { guest with host := { guest.host with memory := memory } }

/-- Makes a call and gives its answer, zero if it has none. -/
def call (guest : Guest) (request : HostRequest Int32) : Int32 × Guest :=
  match guest.host.serve request with
  | (.ok answer, host) => (answer.getD 0, ⟨host, guest.calls + 1, none⟩)
  | (.error fault, host) => (0, ⟨host, guest.calls + 1, some fault⟩)

/-- Makes a call that passes texts, given by the length and the address of each. -/
def callWith (placement : Placement) (guest : Guest) (texts : List (List UInt8))
    (request : (Nat → Int32) → (Nat → Int32) → HostRequest Int32) : Guest :=
  let (memory, addresses) := placement.texts guest.calls texts guest.host.memory
  let length (i : Nat) := Int32.ofNat (texts.getD i []).length
  let address (i : Nat) := Int32.ofNat (addresses.getD i 0)
  ((guest.withMemory memory).call (request length address)).2

/-- Sends a message. -/
def send (placement : Placement) (guest : Guest) (message : Message) : Guest :=
  guest.callWith placement message.texts fun length address => message.request length address

/-- Asks for a snapshot with a buffer, and reads the buffer afterwards. -/
def fill (placement : Placement) (guest : Guest) (snapshot : Snapshot) (room : Nat)
    (buffer : Nat → UInt8) : Filled × Guest :=
  let (memory, address) := placement.buffer guest.calls room buffer guest.host.memory
  let (reported, guest) :=
    (guest.withMemory memory).call (.fetch snapshot (Int32.ofNat room) (Int32.ofNat address))
  (⟨reported, fun i => guest.host.memory.byte (address + i)⟩, guest)

/-- The boundary of a guest. -/
def boundary (placement : Placement) : Boundary Guest where
  probe snapshot guest :=
    if guest.fault?.isSome then (0, guest) else guest.call (.fetch snapshot 0 0)
  fill snapshot room buffer guest :=
    if guest.fault?.isSome then (⟨0, buffer⟩, guest) else guest.fill placement snapshot room buffer
  send message guest :=
    if guest.fault?.isSome then guest else guest.send placement message

end Guest

/-- Writes texts one behind the other and gives the address of each. -/
def Placement.writeAll (address : Nat) (memory : Host.Memory) :
    List (List UInt8) → Host.Memory × List Nat
  | [] => (memory, [])
  | text :: rest =>
    let (memory, addresses) := writeAll (address + text.length) (memory.write address text) rest
    (memory, address :: addresses)

/-- The placement that starts at one address for every call. -/
def Placement.startingAt (address : Nat) : Placement where
  texts _ texts memory := writeAll address memory texts
  buffer _ room content memory := (memory.put address room content, address)

end RecordGate
