import RecordGate.Json.Reader
import RecordGate.Proofs.Invocation.Protocol

/-! # Hosts that keep the fields

A host may keep of each field what it was told last: whether it is required, whether it is visible, and its
value. Keeping is put on top of any host and changes nothing about its answers (`Fetched.keeping`), so that only
the messages of an invocation reach the fields (`sendAll_keeping`). -/

namespace RecordGate
open Json

/-- What a host keeps of a field. -/
structure FieldState where
  required : Bool
  display : Bool
  value : Value

/-- What a message leaves of a field. Flags are off at zero, and a value that cannot be read is not taken. -/
def FieldState.hear (field : String) (state : FieldState) : Message → FieldState
  | .setRequired about flag => if about = field then { state with required := flag != 0 } else state
  | .setDisplay about flag => if about = field then { state with display := flag != 0 } else state
  | .set about bytes =>
    if about = field then
      match Json.parse bytes with
      | .ok value => { state with value }
      | .error _ => state
    else state
  | .diagnostic _ | .error _ _ | .warn _ _ => state

/-- What a host keeps of each field. -/
abbrev Fields := String → FieldState

/-- What messages leave of the fields. -/
def Fields.hearAll (fields : Fields) (messages : List Message) : Fields :=
  fun field => messages.foldl (FieldState.hear field) (fields field)

theorem Fields.hearAll_cons (fields : Fields) (message : Message) (rest : List Message) :
    fields.hearAll (message :: rest) = (fields.hearAll [message]).hearAll rest :=
  rfl

/-- The state of a host and what it keeps of the fields. -/
structure Keeping (σ : Type) where
  fields : Fields
  host : σ

/-- The same host with the fields kept. -/
def Boundary.keeping {σ : Type} (boundary : Boundary σ) : Boundary (Keeping σ) where
  probe snapshot s :=
    let (reported, host) := boundary.probe snapshot s.host
    (reported, ⟨s.fields, host⟩)
  fill snapshot room buffer s :=
    let (filled, host) := boundary.fill snapshot room buffer s.host
    (filled, ⟨s.fields, host⟩)
  send message s := ⟨s.fields.hearAll [message], boundary.send message s.host⟩

variable {σ : Type} {boundary : Boundary σ} {snapshot : Snapshot}

theorem Boundary.keeping_probe {s t : σ} {size : Int32} (h : boundary.probe snapshot s = (size, t))
    (fields : Fields) : boundary.keeping.probe snapshot ⟨fields, s⟩ = (size, ⟨fields, t⟩) := by
  simp only [Boundary.keeping, h]

theorem Boundary.keeping_fill {s t : σ} {room : Nat} {buffer : Nat → UInt8} {filled : Filled}
    (h : boundary.fill snapshot room buffer s = (filled, t)) (fields : Fields) :
    boundary.keeping.fill snapshot room buffer ⟨fields, s⟩ = (filled, ⟨fields, t⟩) := by
  simp only [Boundary.keeping, h]

/-- A fetch takes the same course and leaves the fields alone. -/
theorem Fetched.keeping {s t : σ} {calls : List Exchange} {result : Except TransferError (List UInt8)}
    (h : Fetched boundary snapshot s calls result t) (fields : Fields) :
    Fetched boundary.keeping snapshot ⟨fields, s⟩ calls result ⟨fields, t⟩ := by
  cases h with
  | negative hprobe hsize => exact .negative (Boundary.keeping_probe hprobe fields) hsize
  | nothing hprobe hsize => exact .nothing (Boundary.keeping_probe hprobe fields) hsize
  | filled hprobe hsize hfill hsame =>
    exact .filled (Boundary.keeping_probe hprobe fields) hsize (Boundary.keeping_fill hfill fields) hsame
  | mismatched hprobe hsize hfill hother =>
    exact .mismatched (Boundary.keeping_probe hprobe fields) hsize (Boundary.keeping_fill hfill fields) hother

theorem sendAll_keeping (messages : List Message) (fields : Fields) (s : σ) :
    sendAll boundary.keeping messages ⟨fields, s⟩ = ⟨fields.hearAll messages, sendAll boundary messages s⟩ := by
  induction messages generalizing fields s with
  | nil => rfl
  | cons message rest ih => rw [sendAll_cons, sendAll_cons, Fields.hearAll_cons, ← ih]; rfl

theorem Fetched.no_messages {s t : σ} {calls : List Exchange} {result : Except TransferError (List UInt8)}
    (h : Fetched boundary snapshot s calls result t) : calls.filterMap Exchange.message? = [] := by
  cases h <;> rfl

/-- An invocation ends as it does without the fields being kept, and the fields hear its messages. -/
theorem Course.invoke_keeping {ρ : Type} {schema : Record.Schema ρ} {rules : ρ → ρ → Intents} {s : σ}
    {calls : List Exchange} {outcome : Outcome} (h : Course boundary schema rules s calls outcome)
    (fields : Fields) : ∃ t, invoke boundary.keeping schema rules ⟨fields, s⟩ =
      (outcome, ⟨fields.hearAll (calls.filterMap Exchange.message? ++ outcome.closing), t⟩) := by
  cases h with
  | currentUnfetched hcurrent =>
    apply Exists.intro
    simp only [invoke, attempt, (hcurrent.keeping fields).fetch_eq, hcurrent.no_messages]
    rfl
  | previousUnfetched hcurrent hprevious =>
    apply Exists.intro
    simp only [invoke, attempt, (hcurrent.keeping fields).fetch_eq, (hprevious.keeping fields).fetch_eq,
      List.filterMap_append, hcurrent.no_messages, hprevious.no_messages]
    rfl
  | fetched hcurrent hprevious hconcluded =>
    apply Exists.intro
    rw [hconcluded.invoke_eq (hcurrent.keeping fields).fetch_eq (hprevious.keeping fields).fetch_eq,
      sendAll_keeping]
    simp only [List.filterMap_append, hcurrent.no_messages, hprevious.no_messages, filterMap_message?_sent,
      List.nil_append]
    rfl

end RecordGate
