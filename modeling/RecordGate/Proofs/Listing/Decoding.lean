import RecordGate.Listing.Record
import RecordGate.Proofs.Host.Transport
import RecordGate.Proofs.Record.Invariant

/-! # Decoding listings

A validator reads a listing from the text that the host printed for a value, and it reads the listing that the
value holds (`decode_held`): its price and its status, or what stands for them if they are missing. The other
members are skipped, whatever is nested in them. From any bytes at all, a listing that is decoded has a status
that its text names (`decode_named`). -/

namespace RecordGate.Listing
open Json Record Host

/-! ### Statuses -/

/-- The status is the one that its text names. -/
def Status.Named (status : Status) : Prop :=
  .ofText status.text = status

theorem Status.text_ofText (text : String) : (Status.ofText text).text = text := by
  unfold Status.ofText
  split
  · next h => exact h.symm
  · split
    · next h => exact h.symm
    · split
      · next h => exact h.symm
      · rfl

theorem Status.named_ofText (text : String) : (Status.ofText text).Named :=
  congrArg Status.ofText (Status.text_ofText text)

theorem Status.Named.eq_closed_iff {status : Status} (h : status.Named) :
    status = .closed ↔ status.text = "Closed" := by
  constructor
  · rintro rfl
    rfl
  · intro htext
    rw [← h, htext]
    rfl

/-- A listing that was decoded has the status that its text names: a status comes from a text, and nothing
    else changes it. -/
theorem decode_named {snapshot : Snapshot} {bytes : List UInt8} {listing : Listing}
    (h : decode schema snapshot bytes = .ok listing) : listing.status.Named := by
  have hblank : blank.status.Named := Status.named_ofText ""
  refine decode_invariant (P := fun listing => listing.status.Named) hblank (fun text record rest hread => ?_) h
  refine ofFields_read_invariant (P := fun listing => listing.status.Named) hblank ?_ hread
  intro field hfield text change rest hread record hrecord
  rw [List.mem_cons, List.mem_singleton] at hfield
  rcases hfield with rfl | rfl
  · obtain ⟨⟨price, afterPrice⟩, -, hchange⟩ := map_eq_ok.mp hread
    cases hchange
    exact hrecord
  · obtain ⟨⟨status, afterStatus⟩, -, hchange⟩ := map_eq_ok.mp hread
    cases hchange
    exact Status.named_ofText status

/-! ### The listing of a value -/

/-- The price that a value stands for. -/
def price? (value : Value) : Option Double :=
  (number? value).map Number.toDouble

/-- The status that a value stands for. -/
def status? (value : Value) : Option Status :=
  (text? value).map Status.ofText

/-- What the member of a key stands for, or what is given if there is no such member. -/
def memberOr {α : Type} (members : List (String × Value)) (key : String) (read : Value → Option α) (missing : α) :
    Option α :=
  match members.lookup key with
  | none => some missing
  | some value => read value

/-- The listing that a value holds, if the value is null or an object and the known members have their types. -/
def ofValue? : Value → Option Listing
  | .null => some blank
  | .object members =>
    (memberOr members priceField price? blank.price).bind fun price =>
      (memberOr members statusField status? blank.status).map fun status => ⟨price, status⟩
  | _ => none

/-! ### Fields -/

/-- What the keys of a listing make of values. -/
def view : View Listing := fun key =>
  if key = priceField then some fun value => (price? value).map fun price listing => ⟨price, listing.status⟩
  else if key = statusField then
    some fun value => (status? value).map fun status listing => ⟨listing.price, status⟩
  else none

theorem schema_views : ∃ fields, schema = .ofFields "Listing" blank fields ∧ Views fields view := by
  refine ⟨_, rfl, ?unknown, ?known⟩
  case unknown =>
    intro key h
    unfold view at h
    split at h
    · cases h
    · next hprice =>
      split at h
      · cases h
      · next hstatus =>
        rw [List.find?_cons_of_neg, List.find?_cons_of_neg, List.find?_nil]
        · exact ne_true_of_eq_false (beq_false_of_ne (Ne.symm hstatus))
        · exact ne_true_of_eq_false (beq_false_of_ne (Ne.symm hprice))
  case known =>
    intro key fits h
    unfold view at h
    split at h
    · next hprice =>
      cases h
      subst hprice
      refine ⟨_, rfl, fun hbefore hwrites hrest => ?_⟩
      exact ((readNumberOf_written hbefore hwrites hrest "f64").map Number.toDouble).map _
    · split at h
      · next hstatus =>
        cases h
        subst hstatus
        refine ⟨_, rfl, fun {_ _ _ _ value} hbefore hwrites hrest => ?_⟩
        show Yields _ (((text? value).map Status.ofText).map _) _
        rw [Option.map_map]
        exact (readText_written hbefore hwrites hrest).map _
      · cases h

theorem memberOr_self {α : Type} (key : String) (value : Value) (members : List (String × Value))
    (read : Value → Option α) (missing : α) :
    memberOr ((key, value) :: members) key read missing = read value := by
  unfold memberOr
  rw [List.lookup_cons_self]

theorem memberOr_of_ne {α : Type} {key other : String} (h : key ≠ other) (value : Value)
    (members : List (String × Value)) (read : Value → Option α) (missing : α) :
    memberOr ((other, value) :: members) key read missing = memberOr members key read missing := by
  unfold memberOr
  rw [lookup_cons_of_ne h]

theorem memberOr_of_not_mem {α : Type} {key : String} {members : List (String × Value)}
    (h : key ∉ members.map Prod.fst) (read : Value → Option α) (missing : α) :
    memberOr members key read missing = some missing := by
  unfold memberOr
  cases hlookup : members.lookup key with
  | none => rfl
  | some value => exact absurd (mem_keys_of_lookup hlookup) h

/-- Where no key comes twice, the members make the listing of the two that are known. -/
theorem assemble_eq {members : List (String × Value)} (hkeys : (members.map Prod.fst).Nodup)
    (listing : Listing) :
    assemble view listing members =
      (memberOr members priceField price? listing.price).bind fun price =>
        (memberOr members statusField status? listing.status).map fun status => ⟨price, status⟩ := by
  induction members generalizing listing with
  | nil => rfl
  | cons member members ih =>
    obtain ⟨key, value⟩ := member
    obtain ⟨hfirst, hnodup⟩ := List.nodup_cons.mp hkeys
    have hdiffer : priceField ≠ statusField := by decide
    rw [assemble]
    by_cases hprice : key = priceField
    · subst hprice
      rw [memberOr_self, memberOr_of_ne hdiffer.symm]
      simp only [show view priceField = some _ from rfl]
      cases price? value with
      | none => rfl
      | some price =>
        refine (ih hnodup ⟨price, listing.status⟩).trans ?_
        rw [memberOr_of_not_mem hfirst]
    · by_cases hstatus : key = statusField
      · subst hstatus
        rw [memberOr_self, memberOr_of_ne hdiffer]
        simp only [show view statusField = some _ from rfl]
        cases status? value with
        | none => cases memberOr members priceField price? listing.price <;> rfl
        | some status =>
          refine (ih hnodup ⟨listing.price, status⟩).trans ?_
          rw [memberOr_of_not_mem hfirst]
      · have hunknown : view key = none := (if_neg hprice).trans (if_neg hstatus)
        rw [hunknown, memberOr_of_ne (Ne.symm hprice), memberOr_of_ne (Ne.symm hstatus)]
        exact ih hnodup listing

/-! ### What the host prints -/

theorem memberOr_collected {α : Type} {read : Value → Option α}
    (hread : ∀ value, read value.collected = read value) (members : List (String × Value)) (key : String)
    (missing : α) :
    memberOr (Value.collectedMembers members) key read missing = memberOr members key read missing := by
  induction members with
  | nil => rfl
  | cons member members ih =>
    obtain ⟨other, value⟩ := member
    unfold Value.collectedMembers
    by_cases hkey : key = other
    · rw [hkey, memberOr_self, memberOr_self, hread]
    · rw [memberOr_of_ne hkey, memberOr_of_ne hkey, ih]

theorem price?_collected (value : Value) : price? value.collected = price? value := by
  cases value <;> rfl

theorem status?_collected (value : Value) : status? value.collected = status? value := by
  cases value <;> rfl

theorem decode_scalar {text : List UInt8} {value : Value} (h : Scalar text value []) (hvalue : value ≠ .null)
    (snapshot : Snapshot) : Decodes snapshot none (decode schema snapshot text) := by
  have hyields := ofFields_read_scalar .none h ends_nil "Listing" blank
  obtain ⟨b, more, rfl, hb⟩ := h.head
  have hnull : b ≠ 0x6E := by
    rintro rfl
    have hwrites : Writes 0 (0x6E :: more) (.value value) [] := .scalar h
    exact hvalue hwrites.eq_null.1
  exact decode_of_yields .none hb.toStartsValue hnull .none (hyields _) snapshot

theorem decode_object {members : List (String × Value)} (hintegral : Value.IntegralMembers members)
    (hkeys : (members.map Prod.fst).Nodup) (snapshot : Snapshot) :
    Decodes snapshot (ofValue? (.object members))
      (decode schema snapshot (Text.bytes (Value.object members).text)) := by
  obtain ⟨fields, hschema, hviews⟩ := schema_views
  obtain ⟨text, heq, hencloses⟩ := Value.object_encloses hintegral (Nat.le_refl _) []
  have hcollected := hkeys
  rw [← Value.keys_collectedMembers] at hcollected
  have hyields := ofFields_read_object hviews .none hencloses hcollected "Listing" blank
  rw [assemble_eq hcollected, memberOr_collected price?_collected, memberOr_collected status?_collected,
    ← hschema] at hyields
  rw [List.append_nil] at heq
  rw [heq]
  exact decode_of_yields .none ⟨by decide, by decide, by decide⟩ (by decide) .none hyields snapshot

/-- A text that is the status of a listing is carried as it is. -/
theorem text_of_ofValue? {value : Value} {listing : Listing} {text : String} (h : ofValue? value = some listing)
    (hstatus : value.member? statusField = some (.string text)) : listing.status.text = text := by
  cases value with
  | object members =>
    obtain ⟨price, -, h⟩ := Option.bind_eq_some_iff.mp h
    unfold memberOr at h
    rw [show members.lookup statusField = some (.string text) from hstatus] at h
    cases h
    exact Status.text_ofText text
  | null | bool | int | double | string | array => cases hstatus

/-- From the text of a value the listing that the value holds is read, with the text of its status as it is in
    the value; and if the value holds no listing, that is because a value in it has the wrong type. -/
theorem decode_held {records : RecordPair} {snapshot : Snapshot} {value : Value}
    (hheld : records.Holds snapshot value) (hintegral : value.Integral) (harray : ∀ items, value ≠ .array items)
    (hkeys : ∀ members, value = .object members → (members.map Prod.fst).Nodup) :
    Decodes snapshot (ofValue? value) (decode schema snapshot (records.bytes snapshot)) ∧
      ∀ listing text, ofValue? value = some listing → value.member? statusField = some (.string text) →
        listing.status.text = text := by
  refine ⟨?_, fun listing text h hstatus => text_of_ofValue? h hstatus⟩
  have hwrites := Value.text_writes hintegral (Nat.le_refl _) []
  rw [RecordPair.bytes, hheld.text_eq]
  rw [List.append_nil] at hwrites
  cases value with
  | null =>
    have hnull : decode schema snapshot (Text.bytes Value.null.text) = .ok blank :=
      decode_null .none .none schema snapshot
    rw [hnull]
    exact .fits blank
  | bool _ | int _ | string _ =>
    cases hwrites with
    | scalar h => exact decode_scalar h Value.noConfusion snapshot
  | double x => exact False.elim hintegral
  | array items => exact absurd rfl (harray items)
  | object members => exact decode_object hintegral (hkeys members rfl) snapshot

/-- A closed listing with another member, in which known keys are spelled. -/
def closedListing : Value :=
  .object [("ListPrice", .int 5), ("MlsStatus", .string "Closed"),
    ("Remarks", .array [.object [("ListPrice", .null)], .string "\"MlsStatus\":"])]

theorem decode_held_closed : Decodes .previous (some ⟨.ofInt 5, .closed⟩)
    (decode schema .previous ((RecordPair.ofValues .null (some closedListing)).bytes .previous)) :=
  (decode_held (.previous .null closedListing)
    ⟨(by decide : IntegerInRange 5), trivial, ⟨⟨trivial, trivial⟩, trivial, trivial⟩, trivial⟩
    (fun _ => Value.noConfusion) fun members h => by cases h; decide).1

end RecordGate.Listing
