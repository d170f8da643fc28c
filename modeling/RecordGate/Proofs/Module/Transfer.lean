import RecordGate.Proofs.Host.Transfer
import RecordGate.Proofs.Host.Transport
import RecordGate.Proofs.Module.Reaching

/-! # Transfers during a run

In every state that a run can come to, the host serves the records that it had at the start, whole or not at
all (`transfer_exact`). A module that asks for the size of a record and then for the record has the text of
it, and it is told of a record of no bytes exactly if there is no record. -/

namespace RecordGate
open Host Json

/-! ### Pairs that are built -/

/-- A pair that is built of values or loaded from files, and whether a previous record was given. -/
inductive Host.RecordPair.Built : RecordPair → (given : Bool) → Prop where
  | values (current : Value) (previous : Option Value) : Built (.ofValues current previous) previous.isSome
  | files {files : Files} {current : String} {previous : Option String} {records : RecordPair} :
      RecordPair.ofFiles files current previous = .ok records → Built records previous.isSome

theorem Host.RecordPair.previous_ofValues_eq_empty_iff (current : Value) (previous : Option Value) :
    (RecordPair.ofValues current previous).previous = "" ↔ previous.isSome = false := by
  cases previous with
  | none => exact ⟨fun _ => rfl, fun _ => rfl⟩
  | some earlier => exact ⟨fun h => absurd h earlier.text_ne_empty, fun h => Bool.noConfusion h⟩

/-- The previous text is empty exactly if no previous record was given. -/
theorem Host.RecordPair.Built.previous_eq_empty_iff {records : RecordPair} {given : Bool}
    (h : records.Built given) : records.previous = "" ↔ given = false := by
  cases h with
  | values current previous => exact RecordPair.previous_ofValues_eq_empty_iff current previous
  | files hload =>
    obtain ⟨value, earlier, -, hearlier, rfl⟩ := ofFiles_eq_ok_iff.mp hload
    rw [RecordPair.previous_ofValues_eq_empty_iff]
    cases hearlier <;> exact Iff.rfl

/-! ### Transfers -/

theorem probe_previous_iff {s : HostState} (hexported : s.exported = true) :
    (s.serve (.fetch .previous 0 0)).1 = .ok (some 0) ↔ s.records.previous = "" := by
  by_cases hsize : (s.records.bytes .previous).length < 0x80000000
  · rw [serve_probe hexported hsize]
    constructor
    · intro h
      have hzero : Int32.ofNat (s.records.bytes .previous).length = 0 := Option.some.inj (Except.ok.inj h)
      have hlength := toInt_ofNat hsize
      rw [hzero] at hlength
      have hempty : s.records.bytes .previous = [] :=
        List.length_eq_zero_iff.mp (Int.ofNat.inj hlength.symm)
      exact Text.bytes_injective hempty
    · intro hempty
      have hnone : s.records.bytes .previous = [] := congrArg Text.bytes hempty
      rw [hnone]
      rfl
  · rw [serve_fetch_tooLarge hexported s.memory.inBounds_zero (Nat.not_lt.mp hsize)]
    constructor
    · intro h
      cases h
    · intro hempty
      have hnone : s.records.bytes .previous = [] := congrArg Text.bytes hempty
      rw [hnone] at hsize
      exact absurd (by decide) hsize

namespace Module

/-- In every state of a run, a fetch into a range inside the memory answers with the size of the record that the
    run started with, and copies the whole of it or nothing. The size of a record of `2 ^ 31` bytes is no answer,
    so that its fetch fails. A record that is fetched by its size and given back as a diagnostic is kept as its
    text. A probe finds no previous record exactly if none was given. -/
theorem transfer_exact {memory : Memory} {records : RecordPair} {s : HostState}
    (hreached : HostState.Reaches ⟨memory, true, records, []⟩ s) :
    (∀ snapshot length pointer, s.memory.InBounds length pointer →
      if (records.bytes snapshot).length < 0x80000000 then
        Transferred (records.bytes snapshot) length pointer s (s.serve (.fetch snapshot length pointer)).1
          (s.serve (.fetch snapshot length pointer)).2
      else s.serve (.fetch snapshot length pointer) = (.error (.tooLarge snapshot.name), s)) ∧
    (∀ snapshot (pointer : Int32), (records.bytes snapshot).length < 0x80000000 → 0 ≤ pointer.toInt →
      pointer.toInt + (records.bytes snapshot).length ≤ s.memory.size →
      ∃ (size : Int32) (t : HostState), size.toInt = (records.bytes snapshot).length ∧
        s.serve (.fetch snapshot 0 0) = (.ok (some size), s) ∧
        s.serve (.fetch snapshot size pointer) = (.ok (some size), t) ∧
        t.serve (.diagnostic size pointer) =
          (.ok none, { t with calls := s.calls ++ [.diagnostic (records.text snapshot)] })) ∧
    ∀ given, records.Built given → ((s.serve (.fetch .previous 0 0)).1 = .ok (some 0) ↔ given = false) := by
  have hexported : s.exported = true := hreached.exported
  have hrecords : s.records = records := hreached.records
  subst hrecords
  refine ⟨fun snapshot length pointer hin => ?fetch, fun snapshot pointer hsize hpointer hinside => ?echo,
    fun given hbuilt => (probe_previous_iff hexported).trans hbuilt.previous_eq_empty_iff⟩
  case fetch =>
    split
    · next hsize => exact serve_fetch hexported hin hsize
    · next hsize => exact serve_fetch_tooLarge hexported hin (Nat.not_lt.mp hsize)
  case echo =>
    obtain ⟨t, hfetch, hdiagnostic⟩ := serve_diagnostic_fetched hexported hsize hpointer hinside
    exact ⟨_, t, toInt_ofNat hsize, serve_probe hexported hsize, hfetch, hdiagnostic⟩

/-- A run over the record `5`, of which there is no previous version, after a first call. -/
def afterCall : HostState :=
  (HostState.serve ⟨.zeros 1, true, .ofValues (.int 5) none, []⟩ (.diagnostic 0 0)).2

/-- The record is fetched to the last byte of the memory. -/
theorem transfer_exact_last_byte :
    Transferred (Text.bytes "5") 1 65535 afterCall (afterCall.serve (.fetch .current 1 65535)).1
        (afterCall.serve (.fetch .current 1 65535)).2 ∧
      (∃ (size : Int32) (t : HostState), size.toInt = 1 ∧
        afterCall.serve (.fetch .current size 65535) = (.ok (some size), t) ∧
        t.serve (.diagnostic size 65535) =
          (.ok none, { t with calls := afterCall.calls ++ [.diagnostic "5"] })) ∧
      (afterCall.serve (.fetch .previous 0 0)).1 = .ok (some 0) := by
  have hreached : HostState.Reaches ⟨.zeros 1, true, .ofValues (.int 5) none, []⟩ afterCall := .called _ .start
  obtain ⟨hfetch, hecho, hprevious⟩ := transfer_exact hreached
  refine ⟨hfetch .current 1 65535 ⟨by decide, by decide, by decide⟩, ?_, (hprevious _ (.values _ _)).mpr rfl⟩
  obtain ⟨size, t, hsize, -, hfill, hdiagnostic⟩ := hecho .current 65535 (by decide) (by decide) (by decide)
  exact ⟨size, t, hsize, hfill, hdiagnostic⟩

end Module
end RecordGate
