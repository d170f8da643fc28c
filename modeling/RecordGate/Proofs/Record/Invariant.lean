import RecordGate.Proofs.Except
import RecordGate.Record.Decode

/-! # What every decoded record has

A record is read by changing the blank record field by field. So whatever the blank record has and every
change keeps is had by each record that is read (`ofFields_read_invariant`), and with it by each record that
a snapshot decodes to (`decode_invariant`). -/

namespace RecordGate.Record
open Json

variable {ρ : Type} {P : ρ → Prop}

/-- Every change that a field makes keeps the property. -/
def Field.Keeps (P : ρ → Prop) (field : Field ρ) : Prop :=
  ∀ text change rest, field.read text = .ok (change, rest) → ∀ record, P record → P (change record)

theorem readByKey_invariant {fields : List (Field ρ)} (hkeeps : ∀ field ∈ fields, field.Keeps P)
    {steps : Nat} {first : Bool} {seen : List String} {record result : ρ} {text rest : List UInt8}
    (hrecord : P record) (h : readByKey fields steps first seen record text = .ok (result, rest)) :
    P result := by
  induction steps generalizing first seen record text with
  | zero => cases h
  | succ steps ih =>
    obtain ⟨next, -, h⟩ := bind_eq_ok.mp h
    cases next with
    | close closed =>
      cases h
      exact hrecord
    | entry entry =>
      obtain ⟨⟨key, afterKey⟩, -, h⟩ := bind_eq_ok.mp h
      cases hfind : fields.find? (·.key == key) with
      | none =>
        simp only [hfind] at h
        obtain ⟨afterColon, -, h⟩ := bind_eq_ok.mp h
        obtain ⟨afterValue, -, h⟩ := bind_eq_ok.mp h
        exact ih hrecord h
      | some field =>
        simp only [hfind] at h
        split at h
        · cases h
        · obtain ⟨afterColon, -, h⟩ := bind_eq_ok.mp h
          obtain ⟨⟨change, afterValue⟩, hread, h⟩ := bind_eq_ok.mp h
          exact ih (hkeeps field (List.mem_of_find?_eq_some hfind) _ _ _ hread _ hrecord) h

theorem readByPosition_invariant {fields : List (Field ρ)} (hkeeps : ∀ field ∈ fields, field.Keeps P)
    {first : Bool} {record result : ρ} {text rest : List UInt8} (hrecord : P record)
    (h : readByPosition first record text fields = .ok (result, rest)) : P result := by
  induction fields generalizing first record text with
  | nil =>
    cases h
    exact hrecord
  | cons field fields ih =>
    obtain ⟨next, -, h⟩ := bind_eq_ok.mp h
    cases next with
    | close closed =>
      cases h
      exact hrecord
    | entry entry =>
      obtain ⟨⟨change, afterValue⟩, hread, h⟩ := bind_eq_ok.mp h
      have hfield := hkeeps field List.mem_cons_self _ _ _ hread _ hrecord
      exact ih (fun other hother => hkeeps other (List.mem_cons_of_mem _ hother)) hfield h

/-- A record that is read has what the blank record has and every field keeps. -/
theorem ofFields_read_invariant {name : String} {blank : ρ} {fields : List (Field ρ)} (hblank : P blank)
    (hkeeps : ∀ field ∈ fields, field.Keeps P) {text rest : List UInt8} {record : ρ}
    (h : (Schema.ofFields name blank fields).read text = .ok (record, rest)) : P record := by
  unfold Schema.ofFields at h
  simp only at h
  split at h
  · cases h
  · split at h
    · exact readByKey_invariant hkeeps hblank h
    · split at h
      · obtain ⟨⟨result, afterItems⟩, hitems, h⟩ := bind_eq_ok.mp h
        obtain ⟨afterEnd, -, h⟩ := bind_eq_ok.mp h
        cases h
        exact readByPosition_invariant hkeeps hblank hitems
      · cases h

/-- A decoded record has what the blank record and every record that is read have. -/
theorem decode_invariant {schema : Schema ρ} (hblank : P schema.blank)
    (hread : ∀ text record rest, schema.read text = .ok (record, rest) → P record) {snapshot : Snapshot}
    {bytes : List UInt8} {record : ρ} (h : decode schema snapshot bytes = .ok record) : P record := by
  unfold decode at h
  split at h
  · cases h
    exact hblank
  · obtain ⟨⟨result, rest⟩, hoptional, h⟩ := bind_eq_ok.mp (mapError_eq_ok.mp (mapError_eq_ok.mp h))
    obtain ⟨-, -, h⟩ := bind_eq_ok.mp h
    cases h
    unfold readOptional at hoptional
    split at hoptional
    · exact hread _ _ _ hoptional
    · split at hoptional
      · obtain ⟨_, -, h⟩ := map_eq_ok.mp hoptional
        cases h
        exact hblank
      · exact hread _ _ _ hoptional

/-! ### Pairs -/

theorem decodePair_eq_error_iff {schema : Schema ρ} {current previous : List UInt8} {error : DecodeError} :
    decodePair schema current previous = .error error ↔
      decode schema .current current = .error error ∨
        ∃ record, decode schema .current current = .ok record ∧
          decode schema .previous previous = .error error := by
  unfold decodePair
  constructor
  · intro h
    cases hcurrent : decode schema .current current with
    | error e =>
      rw [hcurrent] at h
      cases h
      exact .inl rfl
    | ok record =>
      cases hprevious : decode schema .previous previous with
      | error e =>
        rw [hcurrent, hprevious] at h
        cases h
        exact .inr ⟨record, rfl, rfl⟩
      | ok earlier =>
        rw [hcurrent, hprevious] at h
        cases h
  · rintro (hcurrent | ⟨record, hcurrent, hprevious⟩)
    · rw [hcurrent]
      rfl
    · rw [hcurrent, hprevious]
      rfl

theorem decodePair_eq_ok_iff {schema : Schema ρ} {current previous : List UInt8} {records : Pair ρ} :
    decodePair schema current previous = .ok records ↔
      decode schema .current current = .ok records.current ∧
        decode schema .previous previous = .ok records.previous := by
  unfold decodePair
  constructor
  · intro h
    obtain ⟨record, hcurrent, h⟩ := bind_eq_ok.mp h
    obtain ⟨earlier, hprevious, h⟩ := bind_eq_ok.mp h
    cases h
    exact ⟨hcurrent, hprevious⟩
  · rintro ⟨hcurrent, hprevious⟩
    rw [hcurrent, hprevious]
    rfl

end RecordGate.Record
