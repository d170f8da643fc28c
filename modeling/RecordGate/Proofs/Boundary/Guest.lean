import RecordGate.Boundary.Guest
import RecordGate.Proofs.Boundary.Served
import RecordGate.Proofs.Host.Transfer

/-! # The calls of a guest

A guest whose placement is sound never makes a call that fails. Its fetches give the records that the host
serves (`Guest.Running.fetch`), and each of its messages is kept by the host as the call that it stands for
(`Guest.Running.send`). What carries both is that the guest is still running, with what it keeps in its
memory (`Guest.Running`). -/

namespace RecordGate
open Host

/-! ### Arguments -/

namespace Host.Memory
variable {memory : Host.Memory} {address : Nat} {bytes : List UInt8}

theorem Spans.inBounds {length : Nat} (h : memory.Spans address length) :
    memory.InBounds (Int32.ofNat length) (Int32.ofNat address) := by
  have hinside := h.inside
  have hbelow := h.below
  have hlength : (Int32.ofNat length).toInt = length := toInt_ofNat (by omega)
  have haddress : (Int32.ofNat address).toInt = address := toInt_ofNat (by omega)
  exact ⟨by omega, by omega, by omega⟩

theorem Holds.passed_eq (h : memory.Holds address bytes) :
    memory.passed (Int32.ofNat bytes.length) (Int32.ofNat address) = bytes := by
  have hbelow := h.spans.below
  unfold Block.passed
  rw [toInt_ofNat (by omega), toInt_ofNat (by omega), Int.toNat_natCast, Int.toNat_natCast]
  exact h.bytes

theorem Holds.met (h : memory.Holds address bytes) (htext : ∃ text, Text.bytes text = bytes) (argument : String) :
    AllMet (memory.textRequirements argument (Int32.ofNat bytes.length) (Int32.ofNat address)) := by
  refine allMet_append.mpr ⟨h.spans.inBounds.met argument, List.forall_mem_singleton.mpr ?_⟩
  show ∃ text, Text.bytes text = memory.passed _ _
  rw [h.passed_eq]
  exact htext

end Host.Memory

/-! ### Messages -/

/-- The call that the host keeps of a message: a flag is any number but zero, and a value is the one that
    its text writes. -/
def Message.received? : Message → Option HostCall
  | .diagnostic text => some (.diagnostic text)
  | .error field message => some (.error field message)
  | .warn field message => some (.warn field message)
  | .setRequired field flag => some (.setRequired field (flag != 0))
  | .setDisplay field flag => some (.setDisplay field (flag != 0))
  | .set field text =>
    match Json.parse text with
    | .ok value => some (.set field value)
    | .error _ => none

/-- Everything that the message passes is a text. -/
def Message.Encoded (message : Message) : Prop :=
  ∀ bytes ∈ message.texts, ∃ text, Text.bytes text = bytes

theorem Message.Encoded.of_texts {message : Message} (texts : List String)
    (h : message.texts = texts.map Text.bytes) : message.Encoded := by
  intro bytes hbytes
  rw [h] at hbytes
  obtain ⟨text, -, htext⟩ := List.mem_map.mp hbytes
  exact ⟨text, htext⟩

/-- The host keeps the messages as the calls, and everything that they pass is a text. -/
structure KeptAs (messages : List Message) (calls : List HostCall) : Prop where
  encoded : ∀ message ∈ messages, message.Encoded
  received : messages.map Message.received? = calls.map some

theorem KeptAs.nil : KeptAs [] [] :=
  ⟨List.forall_mem_nil _, rfl⟩

theorem KeptAs.cons {message : Message} {call : HostCall} (hencoded : message.Encoded)
    (hreceived : message.received? = some call) {messages : List Message} {calls : List HostCall}
    (h : KeptAs messages calls) : KeptAs (message :: messages) (call :: calls) where
  encoded := List.forall_mem_cons.mpr ⟨hencoded, h.encoded⟩
  received := by rw [List.map_cons, List.map_cons, hreceived, h.received]

theorem KeptAs.append {first second : List Message} {calls more : List HostCall} (hfirst : KeptAs first calls)
    (hsecond : KeptAs second more) : KeptAs (first ++ second) (calls ++ more) where
  encoded := List.forall_mem_append.mpr ⟨hfirst.encoded, hsecond.encoded⟩
  received := by rw [List.map_append, List.map_append, hfirst.received, hsecond.received]

/-- A message whose texts lie in the memory meets every requirement, and is carried as its call. -/
theorem Message.accepted {message : Message} {call : HostCall} (hcall : message.received? = some call)
    (htexts : message.Encoded) {s : HostState} (hexported : s.exported = true) {addresses : List Nat}
    (hheld : ∀ i < message.texts.length, s.memory.Holds (addresses.getD i 0) (message.texts.getD i [])) :
    let request := message.request (fun i => Int32.ofNat (message.texts.getD i []).length)
      fun i => Int32.ofNat (addresses.getD i 0)
    AllMet (s.requirements request) ∧ Carried s.memory request call := by
  cases message with
  | diagnostic text =>
    have htext : s.memory.Holds (addresses.getD 0 0) (Text.bytes text) := hheld 0 (Nat.zero_lt_succ _)
    cases hcall
    refine ⟨allMet_cons.mpr ⟨hexported, htext.spans.inBounds.met _⟩, ?_⟩
    have hcarried := @Carried.diagnostic s.memory (Int32.ofNat (Text.bytes text).length)
      (Int32.ofNat (addresses.getD 0 0))
    rw [htext.passed_eq, Text.decodeLossy_bytes] at hcarried
    exact hcarried
  | error field text =>
    have hfield : s.memory.Holds (addresses.getD 0 0) (Text.bytes field) := hheld 0 (Nat.zero_lt_succ _)
    have htext : s.memory.Holds (addresses.getD 1 0) (Text.bytes text) := hheld 1 (Nat.lt_succ_self 1)
    cases hcall
    refine ⟨allMet_cons.mpr ⟨hexported, allMet_append.mpr ⟨?_, ?_⟩⟩, ?_⟩
    · exact hfield.met ⟨field, rfl⟩ "field"
    · exact htext.met ⟨text, rfl⟩ "message"
    · exact .error hfield.passed_eq.symm htext.passed_eq.symm
  | warn field text =>
    have hfield : s.memory.Holds (addresses.getD 0 0) (Text.bytes field) := hheld 0 (Nat.zero_lt_succ _)
    have htext : s.memory.Holds (addresses.getD 1 0) (Text.bytes text) := hheld 1 (Nat.lt_succ_self 1)
    cases hcall
    refine ⟨allMet_cons.mpr ⟨hexported, allMet_append.mpr ⟨?_, ?_⟩⟩, ?_⟩
    · exact hfield.met ⟨field, rfl⟩ "field"
    · exact htext.met ⟨text, rfl⟩ "message"
    · exact .warn hfield.passed_eq.symm htext.passed_eq.symm
  | setRequired field flag =>
    have hfield : s.memory.Holds (addresses.getD 0 0) (Text.bytes field) := hheld 0 (Nat.zero_lt_succ _)
    cases hcall
    refine ⟨allMet_cons.mpr ⟨hexported, ?_⟩, ?_⟩
    · exact hfield.met ⟨field, rfl⟩ "field"
    · exact .setRequired hfield.passed_eq.symm
  | setDisplay field flag =>
    have hfield : s.memory.Holds (addresses.getD 0 0) (Text.bytes field) := hheld 0 (Nat.zero_lt_succ _)
    cases hcall
    refine ⟨allMet_cons.mpr ⟨hexported, ?_⟩, ?_⟩
    · exact hfield.met ⟨field, rfl⟩ "field"
    · exact .setDisplay hfield.passed_eq.symm
  | set field text =>
    have hfield : s.memory.Holds (addresses.getD 0 0) (Text.bytes field) := hheld 0 (Nat.zero_lt_succ _)
    have htext : s.memory.Holds (addresses.getD 1 0) text := hheld 1 (Nat.lt_succ_self 1)
    have hencoded : ∃ encoded, Text.bytes encoded = text :=
      htexts text (List.mem_cons_of_mem _ List.mem_cons_self)
    cases hparse : Json.parse text with
    | error error =>
      simp only [Message.received?, hparse] at hcall
      cases hcall
    | ok value =>
      simp only [Message.received?, hparse] at hcall
      cases hcall
      rw [← htext.passed_eq] at hparse
      refine ⟨allMet_cons.mpr ⟨hexported, allMet_append.mpr ⟨?_, allMet_append.mpr ⟨?_, ?_⟩⟩⟩, ?_⟩
      · exact hfield.met ⟨field, rfl⟩ "field"
      · exact htext.met hencoded "value"
      · exact List.forall_mem_singleton.mpr ⟨value, hparse⟩
      · exact .set hfield.passed_eq.symm hparse

/-! ### A running guest -/

/-- The guest has no fault, it is linked to a host that serves the records and has kept the calls, and its
    memory has what the guest keeps there. -/
structure Guest.Running (kept : Host.Memory → Prop) (records : RecordPair) (calls : List HostCall)
    (guest : Guest) : Prop where
  fault : guest.fault? = none
  exported : guest.host.exported = true
  records : guest.host.records = records
  calls : guest.host.calls = calls
  kept : kept guest.host.memory

section
variable {placement : Placement} {kept : Host.Memory → Prop} {records : RecordPair} {messages : List Message}
  {calls : List HostCall} {guest : Guest}

/-- A message that the host can receive is kept behind the calls before it. -/
theorem Guest.Running.send (h : guest.Running kept records calls) (hkeeps : placement.Keeps kept records messages)
    {message : Message} (hmem : message ∈ messages) (htexts : message.Encoded) {call : HostCall}
    (hcall : message.received? = some call) :
    ((Guest.boundary placement).send message guest).Running kept records (calls ++ [call]) := by
  obtain ⟨hkept, hheld⟩ := hkeeps.texts guest.calls guest.host.memory h.kept message hmem
  show (if guest.fault?.isSome then guest else guest.send placement message).Running _ _ _
  rw [h.fault, if_neg (by decide)]
  unfold Guest.send Guest.callWith
  rcases hplace : placement.texts guest.calls message.texts guest.host.memory with ⟨memory, addresses⟩
  rw [hplace] at hkept hheld
  obtain ⟨hmet, hcarried⟩ :=
    Message.accepted hcall htexts (s := (guest.withMemory memory).host) h.exported hheld
  obtain ⟨answer, t, hserve, hgranted⟩ := serve_granted hmet
  obtain ⟨rfl, rfl⟩ := hgranted.unique (.recorded hcarried)
  show ((guest.withMemory memory).call _).2.Running _ _ _
  unfold Guest.call
  rw [hserve]
  refine ⟨rfl, h.exported, h.records, ?_, hkept⟩
  show guest.host.calls ++ [call] = calls ++ [call]
  rw [h.calls]

/-- Messages that the host can receive are all kept, in order. -/
theorem Guest.Running.sendAll (hkeeps : placement.Keeps kept records messages) {sent : List Message}
    (hsent : ∀ message ∈ sent, message ∈ messages) {received : List HostCall} (hreceived : KeptAs sent received)
    (h : guest.Running kept records calls) :
    (RecordGate.sendAll (Guest.boundary placement) sent guest).Running kept records (calls ++ received) := by
  induction sent generalizing guest calls received with
  | nil =>
    obtain rfl : received = [] := List.map_eq_nil_iff.mp hreceived.received.symm
    rw [List.append_nil]
    exact h
  | cons message rest ih =>
    obtain ⟨hencoded, hcalls⟩ := hreceived
    obtain ⟨hmessage, hrest⟩ := List.forall_mem_cons.mp hencoded
    obtain ⟨call, more, rfl, hcall, hmore⟩ := List.map_eq_cons_iff.mp hcalls.symm
    have hnext := h.send hkeeps (hsent message List.mem_cons_self) hmessage hcall.symm
    have hall := ih (fun other hother => hsent other (List.mem_cons_of_mem _ hother)) ⟨hrest, hmore.symm⟩ hnext
    rw [List.append_assoc] at hall
    exact hall

/-! ### Fetches -/

theorem Guest.Running.probe_eq (h : guest.Running kept records calls) {snapshot : Snapshot}
    (hsize : (records.bytes snapshot).length < 0x80000000) :
    (Guest.boundary placement).probe snapshot guest =
      (Int32.ofNat (records.bytes snapshot).length, ⟨guest.host, guest.calls + 1, none⟩) := by
  obtain rfl := h.records
  show (if guest.fault?.isSome then _ else guest.call (.fetch snapshot 0 0)) = _
  rw [h.fault, if_neg (by decide)]
  unfold Guest.call
  rw [serve_probe h.exported hsize]
  rfl

theorem Guest.Running.fill_eq (h : guest.Running kept records calls)
    (hkeeps : placement.Keeps kept records messages) {snapshot : Snapshot} (hsome : records.bytes snapshot ≠ [])
    (hsize : (records.bytes snapshot).length < 0x80000000) (content : Nat → UInt8) :
    ∃ filled next, (Guest.boundary placement).fill snapshot (records.bytes snapshot).length content guest =
        (filled, next) ∧
      filled.reported = Int32.ofNat (records.bytes snapshot).length ∧
      bufferBytes (records.bytes snapshot).length filled.byte = records.bytes snapshot ∧
      next.Running kept records calls := by
  obtain rfl := h.records
  have hlaid := hkeeps.buffer guest.calls guest.host.memory h.kept snapshot content hsome
  show ∃ filled next, (if guest.fault?.isSome then _ else
    guest.fill placement snapshot (guest.host.records.bytes snapshot).length content) = _ ∧ _
  rw [h.fault, if_neg (by decide)]
  unfold Guest.fill
  rcases hplace : placement.buffer guest.calls (guest.host.records.bytes snapshot).length content
    guest.host.memory with ⟨memory, address⟩
  rw [hplace] at hlaid
  obtain ⟨hspans, hkept⟩ := hlaid
  obtain ⟨answer, t, hserve, hgranted⟩ :=
    serve_fetch_granted (s := (guest.withMemory memory).host) h.exported hspans.inBounds hsize
  have hroom : (Int32.ofNat (guest.host.records.bytes snapshot).length).toInt.toNat =
      (guest.host.records.bytes snapshot).length := by
    rw [toInt_ofNat hsize, Int.toNat_natCast]
  obtain ⟨rfl, rfl⟩ := hgranted.unique (.copied (Nat.le_of_eq hroom.symm))
  have hbelow := hspans.below
  have haddress : (Int32.ofNat address).toInt.toNat = address := by
    rw [toInt_ofNat (by omega), Int.toNat_natCast]
  rw [haddress] at hserve
  unfold Guest.call
  simp only [hserve]
  refine ⟨_, _, rfl, rfl, ?_, ⟨rfl, h.exported, rfl, h.calls, hkept _ rfl⟩⟩
  exact Memory.read_write memory address (guest.host.records.bytes snapshot)

/-- A guest fetches each record as it is served. -/
theorem Guest.Running.fetched (h : guest.Running kept records calls)
    (hkeeps : placement.Keeps kept records messages) {snapshot : Snapshot}
    (hsize : (records.bytes snapshot).length < 0x80000000) :
    ∃ next, Fetched (Guest.boundary placement) snapshot guest (servingCalls snapshot (records.bytes snapshot))
        (.ok (records.bytes snapshot)) next ∧ next.Running kept records calls := by
  have hprobe : (Guest.boundary placement).probe snapshot guest = _ := h.probe_eq hsize
  have hint := toInt_ofNat hsize
  have hprobed : (⟨guest.host, guest.calls + 1, none⟩ : Guest).Running kept records calls :=
    ⟨rfl, h.exported, h.records, h.calls, h.kept⟩
  unfold servingCalls
  by_cases hempty : records.bytes snapshot = []
  · rw [hempty] at hprobe hint ⊢
    exact ⟨_, .nothing hprobe hint, hprobed⟩
  · have hpos : 0 < (records.bytes snapshot).length := List.length_pos_iff.mpr hempty
    obtain ⟨filled, next, hfill, hreported, hbytes, hnext⟩ := hprobed.fill_eq hkeeps hempty hsize fun _ => 0
    rw [if_neg hempty]
    refine ⟨next, ?_, hnext⟩
    rw [← Int.toNat_natCast (records.bytes snapshot).length, ← hint] at hfill
    have hfetched := Fetched.filled hprobe (by omega) hfill hreported
    rw [hint, Int.toNat_natCast, hbytes] at hfetched
    exact hfetched

end
end RecordGate
