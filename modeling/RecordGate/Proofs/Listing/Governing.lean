import RecordGate.Proofs.Boundary.Keeping
import RecordGate.Proofs.Listing.Verdict

/-! # The close price over many invocations

A host that keeps its fields is visited again and again, each time with other records. A visit that completes
restates the whole close price (`governed`), and one that is aborted tells the host nothing about any field, so
that nothing of an earlier visit shows in the flags of the close price. The main statement is
`close_price_governed`. -/

namespace RecordGate.Listing
open Record

variable {σ : Type}

/-- One invocation of the listing rules: the host as it answers this time. -/
structure Visit (σ : Type) where
  boundary : Boundary σ
  host : σ

namespace Visit

/-- The host serves two byte strings this time. -/
def ofBytes (current previous : List UInt8) : Visit Unit :=
  ⟨({ current, previous } : Served).boundary, ()⟩

/-- The records that the rules are applied to. There are none if the visit is aborted before. -/
def Applies (visit : Visit σ) (records : Pair Listing) : Prop :=
  Applied visit.boundary schema visit.host records

/-- How the visit ends. -/
def outcome (visit : Visit σ) : Outcome :=
  (invoke visit.boundary schema evaluate visit.host).1

/-- The visit of a host that keeps its fields: how it ends, and the fields afterwards. -/
def run (visit : Visit σ) (fields : Fields) : Outcome × Fields :=
  let (outcome, s) := invoke visit.boundary.keeping schema evaluate ⟨fields, visit.host⟩
  (outcome, s.fields)

end Visit

/-- The fields after visits one behind the other. -/
def fieldsAfter (fields : Fields) (visits : List (Visit σ)) : Fields :=
  visits.foldl (fun fields visit => (visit.run fields).2) fields

/-- The close price as a listing governs it. The other fields stay. -/
def governed (listing : Listing) (fields : Fields) : Fields := fun field =>
  if field = "ClosePrice" then
    ⟨listing.status = .closed, listing.status = .closed,
      if listing.status = .closed then (fields field).value else .null⟩
  else fields field

/-! ### One visit -/

/-- The verdict on a listing restates the whole close price and says nothing about the other fields. -/
theorem hearAll_verdict {listing : Listing} (hnamed : listing.status.Named) (fields : Fields) :
    fields.hearAll (verdict listing) = governed listing fields := by
  have hclosed := hnamed.eq_closed_iff
  have hnull : Json.parse (Text.bytes "null") = .ok .null := rfl
  funext field
  have hcomplaint : (if listing.price.isNonPositive then
      [.error "ListPrice" "List Price must be greater than $0"] else []).foldl (FieldState.hear field)
        (fields field) = fields field := by split <;> rfl
  unfold Fields.hearAll verdict governed
  rw [List.foldl_append, hcomplaint]
  by_cases hfield : field = "ClosePrice"
  · subst hfield
    by_cases hstatus : listing.status = .closed
    · rw [if_pos (hclosed.mp hstatus)]
      simp [FieldState.hear, hstatus]
    · rw [if_neg (mt hclosed.mpr hstatus)]
      simp [FieldState.hear, hstatus, hnull]
  · have hother : "ClosePrice" ≠ field := Ne.symm hfield
    split <;> simp [FieldState.hear, hother]

/-- Either both records are read and the visit gives the verdict on the current one, or the visit is aborted
    without a word about any field. -/
theorem Visit.exists_course (visit : Visit σ) :
    (∃ calls reason, Course visit.boundary schema evaluate visit.host calls (.aborted reason) ∧
      calls.filterMap Exchange.message? = [] ∧ ∀ records, ¬visit.Applies records) ∨
    ∃ calls errors records, Course visit.boundary schema evaluate visit.host calls (.completed errors) ∧
      calls.filterMap Exchange.message? = verdict records.current ∧ visit.Applies records := by
  simp only [Visit.Applies, applied_iff]
  obtain ⟨first, result, t, hcurrent⟩ := exists_fetched visit.boundary .current visit.host
  rw [hcurrent.fetch_eq]
  rcases result with error | current
  · exact .inl ⟨first, _, .currentUnfetched hcurrent, hcurrent.no_messages, by simp⟩
  · obtain ⟨second, result, u, hprevious⟩ := exists_fetched visit.boundary .previous t
    rw [hprevious.fetch_eq]
    rcases result with error | previous
    · refine .inl ⟨first ++ second, _, .previousUnfetched hcurrent hprevious, ?_, by simp⟩
      rw [List.filterMap_append, hcurrent.no_messages, hprevious.no_messages, List.nil_append]
    · have hmessages : ∀ messages : List Message,
          (first ++ second ++ messages.map Exchange.sent).filterMap Exchange.message? = messages := by
        intro messages
        rw [List.filterMap_append, List.filterMap_append, hcurrent.no_messages, hprevious.no_messages,
          filterMap_message?_sent, List.nil_append, List.nil_append]
      rcases hdecode : decodePair schema current previous with error | records
      · exact .inl ⟨_, _, .fetched hcurrent hprevious (.undecoded hdecode), hmessages [], by simp [hdecode]⟩
      · have hreplayed := replayed_evaluate (decode_named (decodePair_eq_ok_iff.mp hdecode).1) records.previous
        exact .inr ⟨_, _, records, .fetched hcurrent hprevious (.completed hdecode hreplayed), hmessages _,
          current, previous, rfl, rfl, hdecode⟩

theorem Visit.Applies.named {visit : Visit σ} {records : Pair Listing} (h : visit.Applies records) :
    records.current.status.Named := by
  obtain ⟨current, previous, -, -, hdecode⟩ := applied_iff.mp h
  exact decode_named (decodePair_eq_ok_iff.mp hdecode).1

theorem Visit.Applies.unique {visit : Visit σ} {records records' : Pair Listing} (h : visit.Applies records)
    (h' : visit.Applies records') : records = records' := by
  obtain ⟨current, previous, hcurrent, hprevious, hdecode⟩ := applied_iff.mp h
  obtain ⟨current', previous', hcurrent', hprevious', hdecode'⟩ := applied_iff.mp h'
  obtain rfl := Except.ok.inj (hcurrent.symm.trans hcurrent')
  obtain rfl := Except.ok.inj (hprevious.symm.trans hprevious')
  exact Except.ok.inj (hdecode.symm.trans hdecode')

theorem Visit.run_eq {visit : Visit σ} {calls : List Exchange} {outcome : Outcome}
    (h : Course visit.boundary schema evaluate visit.host calls outcome) :
    visit.outcome = outcome ∧ ∀ fields, visit.run fields =
      (outcome, fields.hearAll (calls.filterMap Exchange.message? ++ outcome.closing)) := by
  constructor
  · obtain ⟨t, hlogged⟩ := h.invoke_eq
    exact congrArg Prod.fst (invoke_of_logged hlogged)
  · intro fields
    obtain ⟨t, hkeeping⟩ := h.invoke_keeping fields
    unfold Visit.run
    rw [hkeeping]

/-- What a visit does, whatever the fields were before it. -/
theorem Visit.run_cases (visit : Visit σ) :
    (∃ reason, visit.outcome = .aborted reason ∧ (∀ records, ¬visit.Applies records) ∧
      ∀ fields, visit.run fields = (.aborted reason, fields)) ∨
    ∃ errors records, visit.outcome = .completed errors ∧ visit.Applies records ∧
      ∀ fields, visit.run fields = (.completed errors, governed records.current fields) := by
  rcases visit.exists_course with ⟨calls, reason, hcourse, hmessages, hunread⟩ |
    ⟨calls, errors, records, hcourse, hmessages, happlies⟩
  · obtain ⟨houtcome, hrun⟩ := Visit.run_eq hcourse
    refine .inl ⟨reason, houtcome, hunread, fun fields => ?_⟩
    rw [hrun, hmessages]
    rfl
  · obtain ⟨houtcome, hrun⟩ := Visit.run_eq hcourse
    refine .inr ⟨errors, records, houtcome, happlies, fun fields => ?_⟩
    rw [hrun, hmessages, Outcome.closing, List.append_nil, hearAll_verdict happlies.named]

/-! ### Visits one behind the other -/

theorem fieldsAfter_append (fields : Fields) (earlier later : List (Visit σ)) :
    fieldsAfter fields (earlier ++ later) = fieldsAfter (fieldsAfter fields earlier) later :=
  List.foldl_append

/-- The close price is not required while it is hidden. -/
def Consistent (fields : Fields) : Prop :=
  (fields "ClosePrice").required = true → (fields "ClosePrice").display = true

theorem consistent_governed (listing : Listing) (fields : Fields) : Consistent (governed listing fields) := by
  simp [Consistent, governed]

/-- A visit keeps the flags consistent, and makes them so if it completes. -/
theorem Visit.run_consistent (visit : Visit σ) {fields : Fields}
    (h : (∃ errors, visit.outcome = .completed errors) ∨ Consistent fields) : Consistent (visit.run fields).2 := by
  rcases visit.run_cases with ⟨reason, houtcome, -, hrun⟩ | ⟨errors, records, -, -, hrun⟩
  · rw [hrun]
    rcases h with ⟨errors, hcompleted⟩ | h
    · rw [houtcome] at hcompleted
      cases hcompleted
    · exact h
  · rw [hrun]
    exact consistent_governed _ _

theorem fieldsAfter_consistent {visits : List (Visit σ)} {fields : Fields}
    (h : (∃ visit ∈ visits, ∃ errors, visit.outcome = .completed errors) ∨ Consistent fields) :
    Consistent (fieldsAfter fields visits) := by
  induction visits generalizing fields with
  | nil => simpa [fieldsAfter] using h
  | cons visit rest ih =>
    apply ih
    simp only [List.mem_cons, exists_eq_or_imp] at h
    rcases h with (hfirst | hrest) | hfields
    · exact .inr (visit.run_consistent (.inl hfirst))
    · exact .inl hrest
    · exact .inr (visit.run_consistent (.inr hfields))

theorem applies_ofBytes_iff {current previous : List UInt8} {records : Pair Listing}
    (hcurrent : current.length < 0x80000000) (hprevious : previous.length < 0x80000000) :
    (Visit.ofBytes current previous).Applies records ↔
      decode schema .current current = .ok records.current ∧
        decode schema .previous previous = .ok records.previous := by
  have hfirst := (Served.fetched hcurrent hprevious .current rfl).fetch_eq
  have hsecond := (Served.fetched hcurrent hprevious .previous rfl).fetch_eq
  unfold Visit.Applies Visit.ofBytes
  rw [applied_iff, hfirst, hsecond, ← decodePair_eq_ok_iff]
  simp [Served.record]

/-- After every visit the close price is as the current record of that visit governs it, whatever came before. An
    aborted visit leaves all fields as they were, no visit touches a field other than the close price, and once one
    has completed, the close price is never required while it is hidden. Of bytes that a host can serve, the records
    are those that they decode to. -/
theorem close_price_governed (fields : Fields) (earlier : List (Visit σ)) (visit : Visit σ) :
    let before := fieldsAfter fields earlier
    let after := fieldsAfter fields (earlier ++ [visit])
    (visit.run before).1 = visit.outcome ∧
    ((∃ errors, visit.outcome = .completed errors) ↔ ∃ records, visit.Applies records) ∧
    (∀ records, visit.Applies records →
      ((after "ClosePrice").required = true ↔ records.current.status = .closed) ∧
      ((after "ClosePrice").display = true ↔ records.current.status = .closed) ∧
      (after "ClosePrice").value =
        if records.current.status = .closed then (before "ClosePrice").value else .null) ∧
    (∀ reason, visit.outcome = .aborted reason → after = before) ∧
    (∀ field, field ≠ "ClosePrice" → after field = before field) ∧
    ((∃ visited ∈ earlier ++ [visit], ∃ errors, visited.outcome = .completed errors) →
      (after "ClosePrice").required = true → (after "ClosePrice").display = true) ∧
    ∀ current previous records, current.length < 0x80000000 → previous.length < 0x80000000 →
      ((Visit.ofBytes current previous).Applies records ↔
        decode schema .current current = .ok records.current ∧
        decode schema .previous previous = .ok records.previous) := by
  intro before after
  have hafter : after = (visit.run before).2 := fieldsAfter_append fields earlier [visit]
  have hconsistent : (∃ visited ∈ earlier ++ [visit], ∃ errors, visited.outcome = .completed errors) →
      Consistent after := fun h => fieldsAfter_consistent (.inl h)
  have hbytes : ∀ current previous records, current.length < 0x80000000 → previous.length < 0x80000000 →
      ((Visit.ofBytes current previous).Applies records ↔ decode schema .current current = .ok records.current ∧
        decode schema .previous previous = .ok records.previous) := fun _ _ _ => applies_ofBytes_iff
  rcases visit.run_cases with ⟨reason, houtcome, hunread, hrun⟩ | ⟨errors, records, houtcome, happlies, hrun⟩
  · rw [hrun] at hafter
    refine ⟨by rw [hrun, houtcome], ?_, fun records h => absurd h (hunread records), fun _ _ => hafter,
      fun field _ => by rw [hafter], hconsistent, hbytes⟩
    exact iff_of_false (by simp [houtcome]) fun ⟨records, h⟩ => hunread records h
  · rw [hrun] at hafter
    refine ⟨by rw [hrun, houtcome], iff_of_true ⟨errors, houtcome⟩ ⟨records, happlies⟩, fun records' h => ?_,
      by simp [houtcome], fun field hfield => by simp [hafter, governed, hfield], hconsistent, hbytes⟩
    obtain rfl := happlies.unique h
    simp [hafter, governed]

/-- A visit with a closed listing. -/
def closedVisit : Visit Unit := .ofBytes (Text.bytes "[1,\x22Closed\x22]") []

/-- A visit with a record that is cut short. -/
def garbledVisit : Visit Unit := .ofBytes (Text.bytes "[") []

/-- Fields that are required but hidden, as no completed visit leaves the close price. -/
def hiddenFields : Fields := fun _ => ⟨true, false, .int 5⟩

/-- The closed listing shows the close price, and the garbled one after it changes nothing. -/
theorem close_price_governed_closed :
    (fieldsAfter hiddenFields [closedVisit] "ClosePrice").required = true ∧
    (fieldsAfter hiddenFields [closedVisit] "ClosePrice").display = true ∧
    fieldsAfter hiddenFields ([closedVisit] ++ [garbledVisit]) = fieldsAfter hiddenFields [closedVisit] := by
  have hclosed : (decode schema .current (Text.bytes "[1,\x22Closed\x22]")).toOption.map (·.status) =
    some .closed := by decide +kernel
  have hgarbled : (decode schema .current (Text.bytes "[")).toOption = none := by decide +kernel
  obtain ⟨-, -, hflags, -, -, -, hbytes⟩ := close_price_governed hiddenFields [] closedVisit
  rcases hdecode : decode schema .current (Text.bytes "[1,\x22Closed\x22]") with error | listing
  · rw [hdecode] at hclosed
    cases hclosed
  · rw [hdecode] at hclosed
    have happlies : closedVisit.Applies ⟨listing, blank⟩ :=
      (hbytes _ _ _ (by decide) (by decide)).mpr ⟨hdecode, rfl⟩
    obtain ⟨hrequired, hdisplay, -⟩ := hflags _ happlies
    have hstatus : listing.status = .closed := Option.some.inj hclosed
    refine ⟨hrequired.mpr hstatus, hdisplay.mpr hstatus, ?_⟩
    obtain ⟨-, hcompleted, -, haborted, -, -, hbytes⟩ :=
      close_price_governed hiddenFields [closedVisit] garbledVisit
    rcases houtcome : garbledVisit.outcome with errors | reason
    · obtain ⟨records, hrecords⟩ := hcompleted.mp ⟨errors, houtcome⟩
      rw [((hbytes _ _ _ (by decide) (by decide)).mp hrecords).1] at hgarbled
      cases hgarbled
    · exact haborted reason houtcome

end RecordGate.Listing
