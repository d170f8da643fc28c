import RecordGate.Boundary.Guest
import RecordGate.Proofs.Host.Memory

/-! # Layouts of a guest's memory

Two ways to place what a guest passes. One that writes everything behind one address before every call is
sound wherever there is room for it (`Placement.startingAt_sound`). One that has each text at a place of its
own from the start is sound if the buffer lies apart from them (`Placement.fixed_sound`). -/

namespace RecordGate.Placement
open Host

/-! ### Writing before every call -/

theorem size_writeAll (address : Nat) (memory : Host.Memory) (texts : List (List UInt8)) :
    (writeAll address memory texts).1.size = memory.size := by
  induction texts generalizing address memory with
  | nil => rfl
  | cons text rest ih => exact ih (address + text.length) (memory.write address text)

theorem holds_writeAll_of_le {memory : Host.Memory} {start : Nat} {bytes : List UInt8}
    (h : memory.Holds start bytes) (texts : List (List UInt8)) {address : Nat}
    (hle : start + bytes.length ≤ address) : (writeAll address memory texts).1.Holds start bytes := by
  induction texts generalizing address memory with
  | nil => exact h
  | cons text rest ih =>
    have hle' : start + bytes.length ≤ address + text.length := by omega
    exact ih (h.write text (.inl hle)) hle'

/-- Texts that were written one behind the other all lie where they were written. -/
theorem holds_writeAll {memory : Host.Memory} {address : Nat} {texts : List (List UInt8)}
    (h : memory.Spans address texts.flatten.length) : ∀ i < texts.length,
      (writeAll address memory texts).1.Holds ((writeAll address memory texts).2.getD i 0) (texts.getD i []) := by
  induction texts generalizing address memory with
  | nil => exact fun i hi => absurd hi (Nat.not_lt_zero i)
  | cons text rest ih =>
    have hinside := h.inside
    have hbelow := h.below
    rw [List.flatten_cons, List.length_append] at hinside hbelow
    intro i hi
    cases i with
    | zero =>
      have htext : (memory.write address text).Holds address text :=
        Memory.holds_write ⟨by omega, by omega⟩
      exact holds_writeAll_of_le htext rest (Nat.le_refl _)
    | succ i =>
      have hrest : (memory.write address text).Spans (address + text.length) rest.flatten.length := by
        refine ⟨?_, by omega⟩
        show _ ≤ memory.size
        omega
      exact ih hrest i (Nat.lt_of_succ_lt_succ hi)

/-- Writing behind one address is sound wherever the texts of each message and each record have room. -/
theorem startingAt_sound {address : Nat} {memory : Host.Memory} {records : RecordPair} {messages : List Message}
    (htexts : ∀ message ∈ messages, memory.Spans address message.texts.flatten.length)
    (hrecords : ∀ snapshot, memory.Spans address (records.bytes snapshot).length) :
    (startingAt address).Sound memory records messages := by
  refine ⟨fun kept => kept.size = memory.size, rfl, ?_, ?_⟩
  · intro calls kept hkept message hmessage
    refine ⟨(size_writeAll address kept message.texts).trans hkept, ?_⟩
    exact holds_writeAll ((htexts message hmessage).of_size hkept)
  · intro calls kept hkept snapshot content hsome
    exact ⟨(hrecords snapshot).of_size hkept, fun written hwritten => hkept⟩

/-! ### Places of their own -/

/-- The placement that finds each text at an address of its own, and has one address for buffers. -/
def fixed (place : List UInt8 → Nat) (address : Nat) : Placement where
  texts _ texts memory := (memory, texts.map place)
  buffer _ room content memory := (memory.put address room content, address)

/-- Texts that lie in the memory from the start are sound together with a buffer that lies apart from them. -/
theorem fixed_sound {place : List UInt8 → Nat} {address : Nat} {memory : Host.Memory} {records : RecordPair}
    {messages : List Message}
    (htexts : ∀ message ∈ messages, ∀ text ∈ message.texts, memory.Holds (place text) text)
    (hrecords : ∀ snapshot, memory.Spans address (records.bytes snapshot).length)
    (hapart : ∀ message ∈ messages, ∀ text ∈ message.texts, ∀ snapshot,
      place text + text.length ≤ address ∨ address + (records.bytes snapshot).length ≤ place text) :
    (fixed place address).Sound memory records messages := by
  refine ⟨fun kept => kept.size = memory.size ∧
    ∀ message ∈ messages, ∀ text ∈ message.texts, kept.Holds (place text) text, ⟨rfl, htexts⟩, ?_, ?_⟩
  · intro calls kept hkept message hmessage
    refine ⟨hkept, fun i hi => ?_⟩
    have htext : message.texts[i] ∈ message.texts := List.getElem_mem hi
    show kept.Holds ((message.texts.map place).getD i 0) (message.texts.getD i [])
    rw [List.getD_eq_getElem?_getD, List.getD_eq_getElem?_getD, List.getElem?_map, List.getElem?_eq_getElem hi]
    exact hkept.2 message hmessage _ htext
  · rintro calls kept ⟨hsize, hkept⟩ snapshot content hsome
    refine ⟨(hrecords snapshot).of_size hsize, fun written hwritten => ⟨hsize, ?_⟩⟩
    intro message hmessage text htext
    have happart := hapart message hmessage text htext snapshot
    have hbuffer := (hkept message hmessage text htext).put content happart
    rw [← hwritten] at happart
    exact hbuffer.write written happart

end RecordGate.Placement
