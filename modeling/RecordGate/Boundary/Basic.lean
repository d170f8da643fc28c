import RecordGate.Snapshot

/-! # The boundary between guest and host

A guest sees its host through eight calls. Two serve the snapshots of a record: a probe answers with the
size of the snapshot, and a fill puts its bytes into a buffer if they fit. Six messages go the other way
and have no answer. A `Boundary` is any host at all: whatever state it keeps, it may answer a probe or a
fill with any number and write anything into the buffer. -/

namespace RecordGate

/-- A message from the guest. Flags are numbers and values are bytes, as the host receives them. -/
inductive Message where
  | diagnostic (text : String)
  | error (field message : String)
  | warn (field message : String)
  | setRequired (field : String) (flag : Int32)
  | setDisplay (field : String) (flag : Int32)
  | set (field : String) (value : List UInt8)
  deriving DecidableEq

/-- Whether the message is about a field. -/
def Message.isFieldCall : Message → Bool
  | .diagnostic _ => false
  | _ => true

/-- What a fill leaves behind: the size it reports, and the bytes of the buffer by position. -/
structure Filled where
  reported : Int32
  byte : Nat → UInt8

/-- A host with state of type `σ`. A fill is given the length of the buffer and the bytes in it. -/
structure Boundary (σ : Type) where
  probe : Snapshot → σ → Int32 × σ
  fill : Snapshot → (room : Nat) → (buffer : Nat → UInt8) → σ → Filled × σ
  send : Message → σ → σ

/-- The bytes at the first positions of a buffer. -/
def bufferBytes (room : Nat) (buffer : Nat → UInt8) : List UInt8 :=
  (List.range room).map buffer

/-- A buffer with a record written at its start. -/
def overlay (record : List UInt8) (buffer : Nat → UInt8) : Nat → UInt8 :=
  let content := record.toArray
  fun i => content[i]?.getD (buffer i)

/-- One call over the boundary, with what the host reported. -/
inductive Exchange where
  | probe (snapshot : Snapshot) (reported : Int32)
  | fill (snapshot : Snapshot) (room : Nat) (reported : Int32)
  | sent (message : Message)
  deriving DecidableEq

/-- The message of an exchange, if it is one. -/
def Exchange.message? : Exchange → Option Message
  | .sent message => some message
  | _ => none

/-- The state of a host together with all exchanges so far. -/
structure Logged (σ : Type) where
  log : List Exchange
  host : σ

/-- The same host with every exchange logged. -/
def Boundary.logged {σ : Type} (boundary : Boundary σ) : Boundary (Logged σ) where
  probe snapshot s :=
    let (reported, host) := boundary.probe snapshot s.host
    (reported, ⟨s.log ++ [.probe snapshot reported], host⟩)
  fill snapshot room buffer s :=
    let (filled, host) := boundary.fill snapshot room buffer s.host
    (filled, ⟨s.log ++ [.fill snapshot room filled.reported], host⟩)
  send message s := ⟨s.log ++ [.sent message], boundary.send message s.host⟩

end RecordGate
