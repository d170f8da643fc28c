import RecordGate.Listing.Record
import RecordGate.Proofs.Except
import RecordGate.Proofs.Record.Positional
import RecordGate.Record.Samples

/-! # What stands where a record is expected

The first byte of a snapshot that is no blank tells what is decoded: an object, null, or an array by position.
Nothing else is accepted (`Shaped`), so the bytes of a record are those of an object or of null, unless they
are those of an array that fills a record. The main statement is `decode_shaped`. -/

namespace RecordGate.Record
open Json

variable {ρ : Type}

/-- The first byte that is no blank opens an object. -/
def OpensObject (bytes : List UInt8) : Prop :=
  ∃ more, Blanks bytes (Mark.openObject :: more)

/-- The bytes are those of an array whose items fill a record. -/
def IsFilling (positions : List (Value → Option (ρ → ρ))) (blank : ρ) (bytes : List UInt8) (record : ρ) : Prop :=
  ∃ items, Denotes nestingLimit bytes (.array items) ∧ fill positions blank items = some record

/-- How what stands in the bytes of a snapshot decides what they are decoded to. -/
structure Shaped (schema : Schema ρ) (positions : List (Value → Option (ρ → ρ))) (snapshot : Snapshot)
    (bytes : List UInt8) : Prop where
  /-- An error names the snapshot. -/
  failed : ∀ error, decode schema snapshot bytes = .error error → error.snapshot = snapshot
  accepted : ∀ record, decode schema snapshot bytes = .ok record → OpensObject bytes ∨
    (Denotes nestingLimit bytes .null ∧ record = schema.blank) ∨ IsFilling positions schema.blank bytes record
  /-- Only objects and null are records, except where an array fills one. -/
  only : ((∃ record, decode schema snapshot bytes = .ok record) →
      OpensObject bytes ∨ Denotes nestingLimit bytes .null) ↔ ¬∃ record, IsFilling positions schema.blank bytes record
  /-- An array is the record that it fills, and an error if it fills none. -/
  array : ∀ depth items, Denotes depth bytes (.array items) →
    match fill positions schema.blank items with
    | some record => decode schema snapshot bytes = .ok record
    | none => ∃ error, decode schema snapshot bytes = .error ⟨snapshot, error⟩
  /-- A string, a number or a flag is an error. -/
  scalar : ∀ depth value, Denotes depth bytes value → value.isComposite = false → value ≠ .null →
    ∃ error, decode schema snapshot bytes = .error ⟨snapshot, error⟩

/-! ### The first byte -/

theorem exists_start {bytes : List UInt8} (h : ¬bytes.all isSpace = true) :
    ∃ b more, Blanks bytes (b :: more) ∧ isBlank b = false := by
  induction bytes with
  | nil => exact absurd rfl h
  | cons b bytes ih =>
    cases hb : isBlank b with
    | false => exact ⟨b, bytes, .none, hb⟩
    | true =>
      have hmore : ¬bytes.all isSpace = true := by
        rwa [List.all_cons, isSpace, hb, Bool.true_or, Bool.true_and] at h
      obtain ⟨c, more, hblanks, hc⟩ := ih hmore
      exact ⟨c, more, .more hb hblanks, hc⟩

theorem start_unique {bytes more more' : List UInt8} {b c : UInt8} (h : Blanks bytes (b :: more))
    (hb : isBlank b = false) (h' : Blanks bytes (c :: more')) (hc : isBlank c = false) : b = c :=
  (List.cons.inj ((h.found hb).symm.trans (h'.found hc))).1

theorem OpensObject.not_array {bytes : List UInt8} (h : OpensObject bytes) {depth : Nat} {items : List Value} :
    ¬Denotes depth bytes (.array items) := by
  rintro ⟨start, after, hstart, hwrites, -⟩
  obtain ⟨more, hmore⟩ := h
  obtain ⟨inner, text, -, rfl, -⟩ := array_of_writes hwrites
  exact absurd (start_unique hmore (by decide) hstart (by decide)) (by decide)

/-! ### What is decoded -/

section
variable {schema : Schema ρ} {snapshot : Snapshot} {bytes more : List UInt8} {b : UInt8}

theorem decode_failed {error : DecodeError} (h : decode schema snapshot bytes = .error error) :
    error.snapshot = snapshot := by
  unfold decode at h
  split at h
  · cases h
  · obtain ⟨cause, -, rfl⟩ := mapError_eq_error.mp h
    rfl

/-- Where null does not stand, the schema reads the bytes. -/
theorem decode_eq_ok_iff (hbytes : ¬bytes.all isSpace = true) (hstart : Blanks bytes (b :: more))
    (hb : isBlank b = false) (hnull : b ≠ 0x6E) {record : ρ} :
    decode schema snapshot bytes = .ok record ↔
      ∃ after, schema.read bytes = .ok (record, after) ∧ Blanks after [] := by
  have hread : readOptional schema bytes = schema.read bytes := by
    unfold readOptional
    rw [hstart.found hb]
    exact if_neg hnull
  unfold decode
  rw [if_neg hbytes, mapError_eq_ok, readWhole_eq_ok_iff, hread]

theorem null_of_decode (hbytes : ¬bytes.all isSpace = true) (hstart : Blanks bytes (0x6E :: more)) {record : ρ}
    (h : decode schema snapshot bytes = .ok record) :
    Denotes nestingLimit bytes .null ∧ record = schema.blank := by
  unfold decode at h
  rw [if_neg hbytes, mapError_eq_ok, readWhole_eq_ok_iff] at h
  obtain ⟨after, hread, hend⟩ := h
  unfold readOptional at hread
  rw [hstart.found (by decide)] at hread
  obtain ⟨rest, hword, heq⟩ := map_eq_ok.mp hread
  cases heq
  rw [eq_append_of_expectWord hword] at hstart
  exact ⟨⟨_, _, hstart, .scalar .null, hend⟩, rfl⟩

end

section
variable {fields : List (Field ρ)} {positions : List (Value → Option (ρ → ρ))} {name : String} {blank record : ρ}
  {snapshot : Snapshot} {bytes : List UInt8}

theorem Positions.decode_array (h : Positions fields positions) (hbytes : ¬bytes.all isSpace = true) {depth : Nat}
    {items : List Value} (hdenotes : Denotes depth bytes (.array items)) :
    decode (.ofFields name blank fields) snapshot bytes = .ok record ↔ fill positions blank items = some record := by
  obtain ⟨start, after, hstart, hwrites, hend⟩ := id hdenotes
  obtain ⟨inner, text, rfl, rfl, -⟩ := array_of_writes hwrites
  rw [decode_eq_ok_iff hbytes hstart (by decide) (by decide)]
  constructor
  · rintro ⟨rest, hread, hrest⟩
    obtain ⟨others, hothers, hfill⟩ := h.array_of_read hstart hread inner
    have hsame : Denotes (inner + 1) bytes (.array others) := ⟨_, _, hstart, hothers, hrest⟩
    cases hdenotes.unique hsame
    exact hfill
  · intro hfill
    exact ⟨after, h.read_array hstart hwrites name hfill, hend⟩

/-- What is accepted is an object, null or an array that fills the record. -/
theorem Positions.accepted (h : Positions fields positions) (hbytes : ¬bytes.all isSpace = true)
    (hdecode : decode (.ofFields name blank fields) snapshot bytes = .ok record) : OpensObject bytes ∨
      (Denotes nestingLimit bytes .null ∧ record = blank) ∨ IsFilling positions blank bytes record := by
  obtain ⟨b, more, hstart, hb⟩ := exists_start hbytes
  by_cases hobject : b = Mark.openObject
  · exact .inl ⟨more, hobject ▸ hstart⟩
  by_cases hnull : b = 0x6E
  · exact .inr (.inl (null_of_decode hbytes (hnull ▸ hstart) hdecode))
  obtain ⟨after, hread, hend⟩ := (decode_eq_ok_iff hbytes hstart hb hnull).mp hdecode
  by_cases harray : b = Mark.openArray
  · subst harray
    obtain ⟨items, hwrites, hfill⟩ := h.array_of_read hstart hread 126
    exact .inr (.inr ⟨items, ⟨_, _, hstart, hwrites, hend⟩, hfill⟩)
  · unfold Schema.ofFields at hread
    dsimp only at hread
    rw [hstart.found hb] at hread
    dsimp only at hread
    rw [if_neg hobject, if_neg harray] at hread
    cases hread

theorem Positions.shaped (h : Positions fields positions) (name : String) (blank : ρ) (snapshot : Snapshot)
    (hbytes : ¬bytes.all isSpace = true) : Shaped (.ofFields name blank fields) positions snapshot bytes where
  failed _ := decode_failed
  accepted _ := h.accepted hbytes
  only := by
    constructor
    · rintro honly ⟨record, items, hdenotes, hfill⟩
      rcases honly ⟨record, (h.decode_array hbytes hdenotes).mpr hfill⟩ with hobject | hnull
      · exact hobject.not_array hdenotes
      · cases hnull.unique hdenotes
    · rintro hnone ⟨record, hdecode⟩
      rcases h.accepted hbytes hdecode with hobject | ⟨hnull, -⟩ | hfilling
      · exact .inl hobject
      · exact .inr hnull
      · exact absurd ⟨record, hfilling⟩ hnone
  array depth items hdenotes := by
    split
    · next hfill => exact (h.decode_array hbytes hdenotes).mpr hfill
    · next hfill =>
      cases hdecode : decode (.ofFields name blank fields) snapshot bytes with
      | ok record =>
        cases hfill.symm.trans ((h.decode_array hbytes hdenotes).mp hdecode)
      | error error =>
        obtain rfl := decode_failed hdecode
        exact ⟨error.error, rfl⟩
  scalar depth value hdenotes hscalar hnull := by
    obtain ⟨start, after, hstart, hwrites, hend⟩ := hdenotes
    obtain ⟨b, more, rfl, hb⟩ := hwrites.head
    have hletter : b ≠ 0x6E := by
      rintro rfl
      exact hnull hwrites.eq_null.1
    have hyields : Yields after none ((Schema.ofFields name blank fields).read bytes) := by
      cases hwrites with
      | scalar h => exact ofFields_read_scalar hstart h (ends_of_blanks hend) name blank fields
      | _ => cases hscalar
    have hdecodes := decode_of_yields hstart hb hletter hend hyields snapshot
    generalize decode (.ofFields name blank fields) snapshot bytes = result at hdecodes
    cases hdecodes
    exact ⟨_, rfl⟩

end

end RecordGate.Record

namespace RecordGate
open Json Record

/-! ### The schemas -/

/-- What the fields of a listing make of values, in order. -/
def Listing.positions : List (Value → Option (Listing → Listing)) := [
  fun value => ((number? value).map Number.toDouble).map fun price listing => ⟨price, listing.status⟩,
  fun value => (text? value).map fun status listing => ⟨listing.price, .ofText status⟩]

/-- What the fields of a sample make of values, in order. -/
def Record.Sample.positions : List (Value → Option (Sample → Sample)) := [
  fun value => ((number? value).map Number.toDouble).map fun amount sample => ⟨amount, sample.status⟩,
  fun value => (text? value).map fun status sample => ⟨sample.amount, status⟩]

/-- What the field of an item makes of a value. -/
def Record.Item.positions : List (Value → Option (Item → Item)) :=
  [fun value => (integer? value).map fun quantity _ => ⟨quantity⟩]

/-- Bytes that are not all blank are decoded to a listing, a sample or an item only if they are those of an
    object or of null, or of an array whose items fill the record, and all such arrays are. A string, a number
    or a flag is an error of the snapshot. -/
theorem decode_shaped (snapshot : Snapshot) {bytes : List UInt8} (hbytes : ¬bytes.all isSpace = true) :
    Shaped Listing.schema Listing.positions snapshot bytes ∧ Shaped Sample.schema Sample.positions snapshot bytes ∧
      Shaped Item.schema Item.positions snapshot bytes := by
  have hlisting : Positions _ Listing.positions :=
    .cons (exact_double Listing.priceField _) (.cons (exact_text Listing.statusField _) .nil)
  have hsample : Positions _ Sample.positions := .cons (exact_double "Amount" _) (.cons (exact_text "Status" _) .nil)
  have hitem : Positions _ Item.positions := .cons (exact_integer "Quantity" _) .nil
  exact ⟨hlisting.shaped _ _ snapshot hbytes, hsample.shaped _ _ snapshot hbytes, hitem.shaped _ _ snapshot hbytes⟩

/-- An array with a number is a listing of that price. -/
theorem decode_shaped_array : ¬(Text.bytes "[5]").all isSpace = true ∧
    decode Listing.schema .current (Text.bytes "[5]") = .ok ⟨.ofInt 5, .other ""⟩ := by
  have hbytes : ¬(Text.bytes "[5]").all isSpace = true := by decide
  have hdenotes : Denotes nestingLimit (Text.bytes "[5]") (.array [.int 5]) := parse_eq_ok_iff.mp rfl
  exact ⟨hbytes, (decode_shaped .current hbytes).1.array _ _ hdenotes⟩

/-- So not only objects and null are listings. -/
theorem not_only_objects : ¬∀ (bytes : List UInt8) (listing : Listing), ¬bytes.all isSpace = true →
    decode Listing.schema .current bytes = .ok listing → OpensObject bytes ∨ Denotes nestingLimit bytes .null := by
  intro honly
  have hdenotes : Denotes nestingLimit (Text.bytes "[5]") (.array [.int 5]) := parse_eq_ok_iff.mp rfl
  rcases honly (Text.bytes "[5]") ⟨.ofInt 5, .other ""⟩ (by decide) rfl with hobject | hnull
  · exact hobject.not_array hdenotes
  · cases hnull.unique hdenotes

end RecordGate
