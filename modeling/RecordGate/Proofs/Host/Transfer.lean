import RecordGate.Proofs.Boundary.Contract
import RecordGate.Proofs.Host.Memory
import RecordGate.Proofs.Host.Serving

/-! # Records in transfer

The host serves a snapshot in two calls. Each answers with the size of the record and copies all of it or
nothing (`serve_fetch`), so the bytes that a module finds where it had the record put are the text of the
record (`serve_diagnostic_fetched`). -/

namespace RecordGate.Host

/-! ### Copies -/

/-- A range that lies inside a block, given by its length and its pointer. -/
structure Block.InBounds (block : Block) (size address : Int32) : Prop where
  size_nonneg : 0 ≤ size.toInt
  address_nonneg : 0 ≤ address.toInt
  inside : address.toInt + size.toInt ≤ block.size

/-- The bytes have come to an address, and every other byte is what it was. -/
structure Memory.Copied (before after : Memory) (address : Nat) (bytes : List UInt8) : Prop where
  pages : after.pages = before.pages
  there : after.read address bytes.length = bytes
  elsewhere : ∀ a, a < address ∨ address + bytes.length ≤ a → after.byte a = before.byte a

theorem Memory.copied_write (memory : Memory) (address : Nat) (bytes : List UInt8) :
    Copied memory (memory.write address bytes) address bytes where
  pages := rfl
  there := read_write memory address bytes
  elsewhere a h := by
    unfold write
    exact byte_put_of_not_mem h

/-- What a fetch does to a state. It answers with the size of the record, whatever the length of the range;
    it copies the whole record if the range holds it, and leaves the memory as it was if not; and it
    leaves everything else as it was. -/
structure Transferred (record : List UInt8) (length pointer : Int32) (s : HostState)
    (result : Except HostFault (Option Int32)) (t : HostState) : Prop where
  size : ∃ size : Int32, result = .ok (some size) ∧ size.toInt = record.length
  whole : record.length ≤ length.toInt → s.memory.Copied t.memory pointer.toInt.toNat record
  nothing : length.toInt < record.length → t.memory = s.memory
  calls : t.calls = s.calls
  records : t.records = s.records
  exported : t.exported = s.exported

/-! ### Fetches -/

section
variable {s : HostState} {snapshot : Snapshot} {length pointer : Int32}

theorem Block.InBounds.met {block : Block} (h : block.InBounds length pointer) (argument : String) :
    AllMet (block.rangeRequirements argument length pointer) := by
  unfold rangeRequirements
  simp only [allMet_cons]
  exact ⟨h.size_nonneg, h.address_nonneg, h.inside, List.forall_mem_nil _⟩

theorem Block.inBounds_zero (block : Block) : block.InBounds 0 0 :=
  ⟨Int.le_refl _, Int.le_refl _, Int.natCast_nonneg _⟩

theorem serve_fetch_granted (hexported : s.exported = true) (hin : s.memory.InBounds length pointer)
    (hsize : (s.records.bytes snapshot).length < 0x80000000) :
    ∃ answer t, s.serve (.fetch snapshot length pointer) = (.ok answer, t) ∧
      Granted s (.fetch snapshot length pointer) answer t :=
  serve_granted (allMet_cons.mpr
    ⟨hexported, allMet_append.mpr ⟨hin.met _, List.forall_mem_singleton.mpr hsize⟩⟩)

/-- A fetch into a range inside the memory transfers the record. -/
theorem serve_fetch (hexported : s.exported = true) (hin : s.memory.InBounds length pointer)
    (hsize : (s.records.bytes snapshot).length < 0x80000000) :
    Transferred (s.records.bytes snapshot) length pointer s (s.serve (.fetch snapshot length pointer)).1
      (s.serve (.fetch snapshot length pointer)).2 := by
  have hlength := hin.size_nonneg
  obtain ⟨answer, t, hserve, hgranted⟩ := serve_fetch_granted hexported hin hsize
  rw [hserve]
  cases hgranted with
  | copied hfit =>
    exact ⟨⟨_, rfl, toInt_ofNat hsize⟩, fun _ => s.memory.copied_write _ _, fun h => by omega, rfl, rfl, rfl⟩
  | measured hless =>
    exact ⟨⟨_, rfl, toInt_ofNat hsize⟩, fun h => by omega, fun _ => rfl, rfl, rfl, rfl⟩
  | recorded hcall => cases hcall

/-- A record whose size is no answer cannot be fetched. -/
theorem serve_fetch_tooLarge (hexported : s.exported = true) (hin : s.memory.InBounds length pointer)
    (hsize : 0x80000000 ≤ (s.records.bytes snapshot).length) :
    s.serve (.fetch snapshot length pointer) = (.error (.tooLarge snapshot.name), s) := by
  have hunmet : FirstUnmet (s.requirements (.fetch snapshot length pointer)) (.tooLarge snapshot.name) :=
    .later hexported (.append_of_allMet (hin.met _) (.here (Nat.not_lt.mpr hsize)))
  exact (accept_judged s (.fetch snapshot length pointer)).error_iff.mpr ⟨hunmet, rfl⟩

/-- A probe gives the size and changes nothing. -/
theorem serve_probe (hexported : s.exported = true) (hsize : (s.records.bytes snapshot).length < 0x80000000) :
    s.serve (.fetch snapshot 0 0) = (.ok (some (Int32.ofNat (s.records.bytes snapshot).length)), s) := by
  obtain ⟨answer, t, hserve, hgranted⟩ := serve_fetch_granted hexported s.memory.inBounds_zero hsize
  rw [hserve]
  cases hgranted with
  | copied hfit =>
    have hempty : s.records.bytes snapshot = [] := List.length_eq_zero_iff.mp (Nat.le_zero.mp hfit)
    rw [hempty, Memory.write_nil]
  | measured hless => rfl
  | recorded hcall => cases hcall

/-- A range of the size of the record gets the record, and the same range given as a diagnostic is kept as the
    text of the record. -/
theorem serve_diagnostic_fetched (hexported : s.exported = true)
    (hsize : (s.records.bytes snapshot).length < 0x80000000) (hpointer : 0 ≤ pointer.toInt)
    (hinside : pointer.toInt + (s.records.bytes snapshot).length ≤ s.memory.size) :
    ∃ t, s.serve (.fetch snapshot (Int32.ofNat (s.records.bytes snapshot).length) pointer) =
        (.ok (some (Int32.ofNat (s.records.bytes snapshot).length)), t) ∧
      t.serve (.diagnostic (Int32.ofNat (s.records.bytes snapshot).length) pointer) =
        (.ok none, { t with calls := s.calls ++ [.diagnostic (s.records.text snapshot)] }) := by
  have hint := toInt_ofNat hsize
  have hin : s.memory.InBounds (Int32.ofNat (s.records.bytes snapshot).length) pointer :=
    ⟨by omega, hpointer, by omega⟩
  have htransferred := serve_fetch hexported hin hsize
  rcases hserve : s.serve (.fetch snapshot (Int32.ofNat (s.records.bytes snapshot).length) pointer)
    with ⟨result, t⟩
  rw [hserve] at htransferred
  obtain ⟨⟨size, rfl, hanswer⟩, hwhole, -, hcalls, hrecords, hexported'⟩ := htransferred
  have hcopied := hwhole (Int.le_of_eq hint.symm)
  have hpassed : t.memory.passed (Int32.ofNat (s.records.bytes snapshot).length) pointer =
      s.records.bytes snapshot := by
    unfold Block.passed
    rw [hint, Int.toNat_natCast]
    exact hcopied.there
  have hin' : t.memory.InBounds (Int32.ofNat (s.records.bytes snapshot).length) pointer := by
    refine ⟨hin.size_nonneg, hpointer, ?_⟩
    rw [t.memory.size_eq, hcopied.pages, ← s.memory.size_eq]
    exact hin.inside
  have hmet : AllMet (t.requirements (.diagnostic (Int32.ofNat (s.records.bytes snapshot).length) pointer)) :=
    allMet_cons.mpr ⟨hexported'.trans hexported, hin'.met _⟩
  obtain ⟨answer, u, hserve', hgranted⟩ := serve_granted hmet
  obtain ⟨rfl, rfl⟩ := hgranted.unique (.recorded .diagnostic)
  refine ⟨t, by rw [eq_ofNat_of_toInt hanswer], ?_⟩
  rw [hserve', hpassed, hcalls]
  show (_, ({ t with calls := s.calls ++ [.diagnostic (Text.decodeLossy (Text.bytes _))] } : HostState)) = _
  rw [Text.decodeLossy_bytes]

end
end RecordGate.Host
