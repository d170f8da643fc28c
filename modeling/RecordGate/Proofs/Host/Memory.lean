import RecordGate.Host.Memory

/-! # Reading what was written

Bytes that were put into a memory are read back where they were put, and whatever lies elsewhere is left
alone. -/

namespace RecordGate.Host.Memory

theorem byte_put_of_mem {memory : Memory} {start length : Nat} {content : Nat → UInt8} {i : Nat}
    (h : i < length) : (memory.put start length content).byte (start + i) = content i := by
  have hinside : start ≤ start + i ∧ start + i < start + length := by omega
  show (if _ then _ else _) = _
  rw [if_pos hinside, Nat.add_sub_cancel_left]

theorem byte_put_of_not_mem {memory : Memory} {start length : Nat} {content : Nat → UInt8} {a : Nat}
    (h : a < start ∨ start + length ≤ a) : (memory.put start length content).byte a = memory.byte a :=
  if_neg (by omega)

theorem read_put (memory : Memory) (start length : Nat) (content : Nat → UInt8) :
    (memory.put start length content).read start length = (List.range length).map content := by
  refine List.map_congr_left fun i hi => ?_
  exact byte_put_of_mem (List.mem_range.mp hi)

theorem read_write (memory : Memory) (start : Nat) (bytes : List UInt8) :
    (memory.write start bytes).read start bytes.length = bytes := by
  unfold write
  rw [read_put]
  apply List.ext_getElem
  · rw [List.length_map, List.length_range]
  · intro i hi hbytes
    simp [hbytes]

theorem write_nil (memory : Memory) (start : Nat) : memory.write start [] = memory := by
  have hbyte : (memory.write start []).byte = memory.byte := by
    funext a
    show (if start ≤ a ∧ a < start + 0 then _ else memory.byte a) = memory.byte a
    exact if_neg (by omega)
  show ({ memory with byte := (memory.write start []).byte } : Memory) = memory
  rw [hbyte]

theorem Spans.of_size {memory other : Memory} {address length : Nat} (h : memory.Spans address length)
    (hsize : other.size = memory.size) : other.Spans address length where
  inside := by
    rw [hsize]
    exact h.inside
  below := h.below

/-- What lies outside a written range stays where it is. -/
theorem Holds.put {memory : Memory} {address : Nat} {bytes : List UInt8} (h : memory.Holds address bytes)
    {start length : Nat} (content : Nat → UInt8)
    (hapart : address + bytes.length ≤ start ∨ start + length ≤ address) :
    (memory.put start length content).Holds address bytes := by
  refine ⟨⟨h.spans.inside, h.spans.below⟩, ?_⟩
  refine Eq.trans (List.map_congr_left fun i hi => ?_) h.bytes
  have hi := List.mem_range.mp hi
  exact byte_put_of_not_mem (by omega)

theorem Holds.write {memory : Memory} {address : Nat} {bytes : List UInt8} (h : memory.Holds address bytes)
    {start : Nat} (written : List UInt8)
    (hapart : address + bytes.length ≤ start ∨ start + written.length ≤ address) :
    (memory.write start written).Holds address bytes := by
  unfold Memory.write
  exact h.put _ hapart

theorem holds_write {memory : Memory} {address : Nat} {bytes : List UInt8}
    (h : memory.Spans address bytes.length) : (memory.write address bytes).Holds address bytes :=
  ⟨⟨h.inside, h.below⟩, read_write memory address bytes⟩

end RecordGate.Host.Memory
