import Mathlib.Data.List.Forall2
import RecordGate.Proofs.Record.Written

/-! # Records by position

A schema with fields also takes an array, whose items stand for the fields in order (`fill`). Every item that
is taken is a scalar, and the array may have fewer items than there are fields but not more. So an array is
read exactly if its items fill a record (`Positions.read_array`, `Positions.array_of_read`). -/

namespace RecordGate.Record
open Json

variable {ρ : Type}

/-- The record that items make of another one, if there are not more of them than fields and each has the type
    of its field. -/
def fill : List (Value → Option (ρ → ρ)) → ρ → List Value → Option ρ
  | _, record, [] => some record
  | [], _, _ :: _ => none
  | fits :: more, record, item :: items => (fits item).bind fun change => fill more (change record) items

/-- The field reads what is made of the value that stands there, and it reads nothing but scalars. -/
structure Field.Exact (field : Field ρ) (fits : Value → Option (ρ → ρ)) : Prop where
  reads : field.Reads fits
  scalar : ∀ {before rest : List UInt8} {change : ρ → ρ}, field.read before = .ok (change, rest) →
    ∃ text value, Blanks before text ∧ Scalar text value rest

/-- The fields read, in order, what is made of the values that stand there. -/
abbrev Positions (fields : List (Field ρ)) (positions : List (Value → Option (ρ → ρ))) : Prop :=
  List.Forall₂ Field.Exact fields positions

/-! ### Single values -/

theorem scalar_of_readNumberOf {expected : String} {before rest : List UInt8} {number : Number}
    (h : readNumberOf expected before = .ok (number, rest)) :
    ∃ text, Blanks before text ∧ Scalar text number.toValue rest := by
  unfold readNumberOf at h
  split at h
  · cases h
  · next hskip =>
    split at h
    · obtain ⟨literal, hnumeral, hvalue⟩ := numeral_of_readNumber h
      exact ⟨_, blanks_of_skipBlanks hskip, .number hnumeral hvalue⟩
    · cases h

theorem scalar_of_readText {before rest : List UInt8} {s : String} (h : readText before = .ok (s, rest)) :
    ∃ text, Blanks before text ∧ Scalar text (.string s) rest := by
  unfold readText at h
  split at h
  · cases h
  · next hskip =>
    split at h
    · next hquote =>
      exact ⟨_, blanks_of_skipBlanks (hquote ▸ hskip), .string (readString_eq_ok_iff.mp h)⟩
    · cases h

/-- The integer of 64 bits that a value is. -/
def integer? : Value → Option Int
  | .int i => if i < 0x8000000000000000 then some i else none
  | _ => none

theorem readInteger_written {depth : Nat} {before text rest : List UInt8} {value : Value}
    (hbefore : Blanks before text) (h : Writes depth text (.value value) rest) (hrest : Ends rest) :
    Yields rest (integer? value) (readInteger before) := by
  have hyields := readNumberOf_written hbefore h hrest "i64"
  unfold readInteger
  generalize hexpected : number? value = expected at hyields
  generalize readNumberOf "i64" before = result at hyields
  cases hyields with
  | fits number =>
    cases value with
    | int i =>
      cases hexpected
      simp only [ok_bind, integer?]
      split
      · exact .fits i
      · exact .mismatch _ _
    | double x =>
      cases hexpected
      exact .mismatch _ _
    | null | bool | string | array | object => cases hexpected
  | mismatch what left =>
    have hnone : integer? value = none := by
      cases value with
      | int => cases hexpected
      | null | bool | double | string | array | object => rfl
    rw [hnone]
    exact .mismatch what left

/-! ### Fields -/

theorem exact_double (key : String) (update : Double → ρ → ρ) :
    Field.Exact ⟨key, fun text => (readDouble text).map fun (x, rest) => (update x, rest)⟩
      fun value => ((number? value).map Number.toDouble).map update where
  reads hbefore hwrites hrest := ((readNumberOf_written hbefore hwrites hrest "f64").map Number.toDouble).map update
  scalar h := by
    obtain ⟨⟨x, rest⟩, hdouble, heq⟩ := map_eq_ok.mp h
    obtain ⟨⟨number, rest⟩, hnumber, heq'⟩ := map_eq_ok.mp hdouble
    cases heq
    cases heq'
    obtain ⟨text, hblanks, hscalar⟩ := scalar_of_readNumberOf hnumber
    exact ⟨text, _, hblanks, hscalar⟩

theorem exact_text (key : String) (update : String → ρ → ρ) :
    Field.Exact ⟨key, fun text => (readText text).map fun (s, rest) => (update s, rest)⟩
      fun value => (text? value).map update where
  reads hbefore hwrites hrest := (readText_written hbefore hwrites hrest).map update
  scalar h := by
    obtain ⟨⟨s, rest⟩, htext, heq⟩ := map_eq_ok.mp h
    cases heq
    obtain ⟨text, hblanks, hscalar⟩ := scalar_of_readText htext
    exact ⟨text, _, hblanks, hscalar⟩

theorem exact_integer (key : String) (update : Int → ρ → ρ) :
    Field.Exact ⟨key, fun text => (readInteger text).map fun (i, rest) => (update i, rest)⟩
      fun value => (integer? value).map update where
  reads hbefore hwrites hrest := (readInteger_written hbefore hwrites hrest).map update
  scalar h := by
    obtain ⟨⟨i, rest⟩, hinteger, heq⟩ := map_eq_ok.mp h
    cases heq
    obtain ⟨⟨number, after⟩, hnumber, hrest⟩ := bind_eq_ok.mp hinteger
    obtain ⟨text, hblanks, hscalar⟩ := scalar_of_readNumberOf hnumber
    cases number with
    | int =>
      dsimp only at hrest
      split at hrest
      · cases hrest
        exact ⟨text, _, hblanks, hscalar⟩
      · cases hrest
    | double => cases hrest

/-! ### Items -/

section
variable {fields : List (Field ρ)} {positions : List (Value → Option (ρ → ρ))} {record result : ρ}

theorem fill_nil (positions : List (Value → Option (ρ → ρ))) (record : ρ) :
    fill positions record [] = some record := by
  cases positions <;> rfl

theorem fill_cons_eq_some {fits : Value → Option (ρ → ρ)} {item : Value} {items : List Value}
    (h : fill (fits :: positions) record (item :: items) = some result) :
    ∃ change, fits item = some change ∧ fill positions (change record) items = some result :=
  Option.bind_eq_some_iff.mp h

theorem Field.Exact.read_eq {field : Field ρ} {fits : Value → Option (ρ → ρ)} (h : field.Exact fits) {depth : Nat}
    {before text rest : List UInt8} {value : Value} (hbefore : Blanks before text)
    (hwrites : Writes depth text (.value value) rest) (hrest : Ends rest) {change : ρ → ρ}
    (hfits : fits value = some change) : field.read before = .ok (change, rest) := by
  have hyields := h.reads hbefore hwrites hrest
  rw [hfits] at hyields
  generalize field.read before = read at hyields
  cases hyields
  rfl

theorem Field.Exact.fits_eq {field : Field ρ} {fits : Value → Option (ρ → ρ)} (h : field.Exact fits)
    {before text rest : List UInt8} {value : Value} (hbefore : Blanks before text) (hscalar : Scalar text value rest)
    (hrest : Ends rest) {change : ρ → ρ} (hread : field.read before = .ok (change, rest)) :
    fits value = some change := by
  have hwrites : Writes 0 text (.value value) rest := .scalar hscalar
  have hyields := h.reads hbefore hwrites hrest
  rw [hread] at hyields
  generalize hexpected : fits value = expected at hyields
  cases hyields
  rfl

/-- Items that fill a record are read into it, up to the end of the array. -/
theorem Positions.readByPosition_eq (h : Positions fields positions) {depth : Nat} {items : List Value}
    {text rest : List UInt8} (hwrites : Writes depth text (.items items) rest) {first : Bool} {before : List UInt8}
    (hled : Led first before text) (hfill : fill positions record items = some result) :
    ∃ after, readByPosition first record before fields = .ok (result, after) ∧
      Blanks after (Mark.closeArray :: rest) := by
  induction items generalizing text first before fields positions record with
  | nil => cases hwrites
  | cons item items ih =>
    cases h with
    | nil => cases hfill
    | @cons field fits fields positions hfield hfields =>
      obtain ⟨change, hfits, hfill⟩ := fill_cons_eq_some hfill
      have hitem : ∀ {start after : List UInt8}, Blanks text start → Writes depth start (.value item) after →
          Ends after → readByPosition first record before (field :: fields) =
            readByPosition false (change record) after fields := by
        intro start after hstart hvalue hends
        obtain ⟨b, more, rfl, hb⟩ := hvalue.head
        rw [readByPosition, hled.nextItem hstart hb.blank hb.closeArray, ok_bind]
        dsimp only
        rw [hfield.read_eq .none hvalue hends hfits, ok_bind]
      cases hwrites with
      | @lastItem _ _ _ after _ _ hstart hvalue hclose =>
        cases (fill_nil positions (change record)).symm.trans hfill
        refine ⟨after, ?_, hclose⟩
        rw [hitem hstart hvalue (ends_of_mark hclose (by decide))]
        cases hfields with
        | nil => rfl
        | cons _ _ => rw [readByPosition, nextItem_close hclose, ok_bind]; rfl
      | item hstart hvalue hcomma hmore =>
        rw [hitem hstart hvalue (ends_of_mark hcomma (by decide))]
        exact ih hfields hmore (.comma hcomma) hfill

/-- What was read up to the end of an array are items that fill the record, or there are none. -/
theorem Positions.written_of_readByPosition (h : Positions fields positions) {first : Bool}
    {before after rest : List UInt8} (hread : readByPosition first record before fields = .ok (result, after))
    (hclose : Blanks after (Mark.closeArray :: rest)) (depth : Nat) :
    (∃ text items, Led first before text ∧ Writes depth text (.items items) rest ∧
      fill positions record items = some result) ∨
      (result = record ∧ Blanks before (Mark.closeArray :: rest)) := by
  induction h generalizing first before record with
  | nil =>
    cases hread
    exact .inr ⟨rfl, hclose⟩
  | @cons field fits fields positions hfield hfields ih =>
    obtain ⟨next, hnext, hread⟩ := bind_eq_ok.mp hread
    cases next with
    | close closed =>
      cases hread
      exact .inr ⟨rfl, hclose⟩
    | entry start =>
      obtain ⟨text, hled, hstart⟩ := led_of_nextItem hnext
      obtain ⟨⟨change, middle⟩, hvalue, hread⟩ := bind_eq_ok.mp hread
      obtain ⟨itemText, item, hblanks, hscalar⟩ := hfield.scalar hvalue
      have hwrites : Writes depth itemText (.value item) middle := .scalar hscalar
      rcases ih hread with ⟨more, items, hcomma, hmore, hfill⟩ | ⟨rfl, hend⟩
      · cases hcomma with
        | comma hcomma =>
          have hfits := hfield.fits_eq hblanks hscalar (ends_of_mark hcomma (by decide)) hvalue
          refine .inl ⟨text, item :: items, hled, .item (hstart.trans hblanks) hwrites hcomma hmore, ?_⟩
          rw [fill, hfits]
          exact hfill
      · have hfits := hfield.fits_eq hblanks hscalar (ends_of_mark hend (by decide)) hvalue
        refine .inl ⟨text, [item], hled, .lastItem (hstart.trans hblanks) hwrites hend, ?_⟩
        rw [fill, hfits]
        exact fill_nil positions (change record)

/-! ### Arrays -/

theorem expectArrayEnd_eq_ok_iff {text rest : List UInt8} :
    expectArrayEnd text = .ok rest ↔ Blanks text (Mark.closeArray :: rest) := by
  unfold expectArrayEnd
  constructor
  · intro h
    split at h
    · cases h
    · next hskip =>
      split at h
      · next hclose =>
        cases h
        exact blanks_of_skipBlanks (hclose ▸ hskip)
      · split at h
        · dsimp only at h
          split at h <;> cases h
        · cases h
  · intro h
    rw [h.found (by decide)]
    exact if_pos rfl

theorem array_of_writes {depth : Nat} {text rest : List UInt8} {items : List Value}
    (h : Writes depth text (.value (.array items)) rest) : ∃ inner more, depth = inner + 1 ∧
      text = Mark.openArray :: more ∧
        ((items = [] ∧ Blanks more (Mark.closeArray :: rest)) ∨ Writes inner more (.items items) rest) := by
  generalize hpart : Part.value (.array items) = part at h
  cases h with
  | scalar hscalar =>
    cases hpart
    cases hscalar.flat
  | emptyArray hclose =>
    cases hpart
    exact ⟨_, _, rfl, rfl, .inl ⟨rfl, hclose⟩⟩
  | array hitems =>
    cases hpart
    exact ⟨_, _, rfl, rfl, .inr hitems⟩
  | _ => cases hpart

theorem readByPosition_close {before rest : List UInt8} (h : Blanks before (Mark.closeArray :: rest))
    (fields : List (Field ρ)) (record : ρ) : readByPosition true record before fields = .ok (record, before) := by
  cases fields with
  | nil => rfl
  | cons field fields => rw [readByPosition, nextItem_close h, ok_bind]; rfl

/-- A schema with fields reads an array item by item. -/
theorem ofFields_read_openArray {before text : List UInt8} (hbefore : Blanks before (Mark.openArray :: text))
    (name : String) (blank : ρ) (fields : List (Field ρ)) :
    (Schema.ofFields name blank fields).read before = (do
      let (record, rest) ← readByPosition true blank text fields
      let rest ← expectArrayEnd rest
      return (record, rest)) := by
  unfold Schema.ofFields
  dsimp only
  rw [hbefore.found (show isBlank Mark.openArray = false by decide)]
  exact (if_neg (show Mark.openArray ≠ Mark.openObject by decide)).trans (if_pos rfl)

/-- Items that fill a record are read as the record. -/
theorem Positions.read_array (h : Positions fields positions) {depth : Nat} {items : List Value}
    {before start rest : List UInt8} (hbefore : Blanks before start)
    (hwrites : Writes depth start (.value (.array items)) rest) (name : String) {blank : ρ}
    (hfill : fill positions blank items = some result) :
    (Schema.ofFields name blank fields).read before = .ok (result, rest) := by
  obtain ⟨inner, text, rfl, rfl, ⟨rfl, hclose⟩ | hitems⟩ := array_of_writes hwrites
  · cases (fill_nil positions blank).symm.trans hfill
    rw [ofFields_read_openArray hbefore, readByPosition_close hclose]
    exact bind_eq_ok.mpr ⟨_, rfl, bind_eq_ok.mpr ⟨rest, expectArrayEnd_eq_ok_iff.mpr hclose, rfl⟩⟩
  · obtain ⟨after, hread, hclose⟩ := h.readByPosition_eq hitems .first hfill
    rw [ofFields_read_openArray hbefore, hread]
    exact bind_eq_ok.mpr ⟨_, rfl, bind_eq_ok.mpr ⟨rest, expectArrayEnd_eq_ok_iff.mpr hclose, rfl⟩⟩

/-- What is read from an array is the record that its items fill. -/
theorem Positions.array_of_read (h : Positions fields positions) {before text rest : List UInt8}
    (hbefore : Blanks before (Mark.openArray :: text)) {name : String} {blank : ρ}
    (hread : (Schema.ofFields name blank fields).read before = .ok (result, rest)) (depth : Nat) :
    ∃ items, Writes (depth + 1) (Mark.openArray :: text) (.value (.array items)) rest ∧
      fill positions blank items = some result := by
  rw [ofFields_read_openArray hbefore] at hread
  obtain ⟨⟨record, after⟩, hitems, hread⟩ := bind_eq_ok.mp hread
  obtain ⟨rest, hend, hread⟩ := bind_eq_ok.mp hread
  cases hread
  rcases h.written_of_readByPosition hitems (expectArrayEnd_eq_ok_iff.mp hend) depth with
    ⟨start, items, hled, hwrites, hfill⟩ | ⟨rfl, hclose⟩
  · cases hled
    exact ⟨items, .array hwrites, hfill⟩
  · exact ⟨[], .emptyArray hclose, fill_nil positions result⟩

end

end RecordGate.Record
