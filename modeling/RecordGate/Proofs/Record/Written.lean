import RecordGate.Proofs.Json.Skipping
import RecordGate.Record.Decode

/-! # Decoding what a text writes

A schema with fields does not read a value first, it reads the text of the record. Where the text writes
members, each key once, the record is the one that the values of the members make (`readByKey_written`). The
values of unknown keys are skipped, so nothing depends on them. What a schema yields for a text is what the
text is decoded to (`decode_of_yields`), except that null stands for the blank record (`decode_null`). -/

namespace RecordGate.Record
open Json

variable {α ρ : Type}

/-! ### Results -/

/-- What comes of reading something that is there or is of the wrong type. -/
inductive Yields (rest : List UInt8) : Option α → Except Fault (α × List UInt8) → Prop where
  | fits (result : α) : Yields rest (some result) (.ok (result, rest))
  | mismatch (what : Mismatch) (left : Nat) : Yields rest none (.error ⟨.mismatch what, left⟩)

/-- What comes of decoding a snapshot that holds a record or something of the wrong type. -/
inductive Decodes (snapshot : Snapshot) : Option ρ → Except DecodeError ρ → Prop where
  | fits (record : ρ) : Decodes snapshot (some record) (.ok record)
  | mismatch (what : Mismatch) (line column : Nat) :
      Decodes snapshot none (.error ⟨snapshot, .mismatch what, line, column⟩)

theorem Yields.map {rest : List UInt8} {expected : Option α} {result : Except Fault (α × List UInt8)}
    (h : Yields rest expected result) (f : α → ρ) :
    Yields rest (expected.map f) (result.map fun (a, rest) => (f a, rest)) := by
  cases h with
  | fits a => exact .fits (f a)
  | mismatch what left => exact .mismatch what left

/-! ### Single values -/

/-- The number that a value is. -/
def number? : Value → Option Number
  | .int i => some (.int i)
  | .double x => some (.double x)
  | _ => none

/-- The text that a value is. -/
def text? : Value → Option String
  | .string s => some s
  | _ => none

theorem mismatch_numeral {b : UInt8} (hb : b = Mark.minus ∨ isDigit b = true) {text rest : List UInt8}
    {number : Number} (h : readNumber (b :: text) = .ok (number, rest)) (expected : String) :
    mismatch expected (b :: text) = .before (.mismatch (.type number.found expected)) rest := by
  unfold mismatch
  simp only [if_neg (ne_of_numeral hb 0x6E (by decide) rfl), if_neg (ne_of_numeral hb 0x74 (by decide) rfl),
    if_neg (ne_of_numeral hb 0x66 (by decide) rfl), if_pos hb, h]

theorem mismatch_string {text rest : List UInt8} {s : String} (h : Spells text (Text.bytes s) rest)
    (expected : String) :
    mismatch expected (Mark.quote :: text) = .before (.mismatch (.type (.string s) expected)) rest := by
  have hquote : ¬(Mark.quote = Mark.minus ∨ isDigit Mark.quote = true) := by decide
  unfold mismatch
  simp only [if_neg (show Mark.quote ≠ 0x6E by decide), if_neg (show Mark.quote ≠ 0x74 by decide),
    if_neg (show Mark.quote ≠ 0x66 by decide), if_neg hquote, if_true, readString_eq_ok_iff.mpr h]

/-- Any value that is written can be named as one of the wrong type. -/
theorem mismatch_written {depth : Nat} {text rest : List UInt8} {value : Value}
    (h : Writes depth text (.value value) rest) (hrest : Ends rest) (expected : String) :
    ∃ what left, mismatch expected text = ⟨.mismatch what, left⟩ := by
  cases h with
  | scalar hscalar =>
    cases hscalar with
    | null =>
      refine ⟨.type .null expected, rest.length, ?_⟩
      simp only [mismatch, if_true, expectWord_append]
      rfl
    | true =>
      refine ⟨.type (.bool true) expected, rest.length, ?_⟩
      simp only [mismatch, if_neg (show (0x74 : UInt8) ≠ 0x6E by decide), if_true, expectWord_append]
      rfl
    | false =>
      refine ⟨.type (.bool false) expected, rest.length, ?_⟩
      simp only [mismatch, if_neg (show (0x66 : UInt8) ≠ 0x6E by decide),
        if_neg (show (0x66 : UInt8) ≠ 0x74 by decide), if_true, expectWord_append]
      rfl
    | string hspells => exact ⟨_, _, mismatch_string hspells expected⟩
    | number hnumeral hvalue =>
      obtain ⟨b, more, rfl, hb⟩ := hnumeral.head
      exact ⟨_, _, mismatch_numeral hb (hnumeral.readNumber hrest hvalue) expected⟩
  | emptyArray _ | array _ => exact ⟨_, _, rfl⟩
  | emptyObject _ | object _ _ => exact ⟨_, _, rfl⟩

theorem readNumberOf_written {depth : Nat} {before text rest : List UInt8} {value : Value}
    (hbefore : Blanks before text) (h : Writes depth text (.value value) rest) (hrest : Ends rest)
    (expected : String) : Yields rest (number? value) (readNumberOf expected before) := by
  have hmismatch := mismatch_written h hrest expected
  obtain ⟨b, more, rfl, hb⟩ := h.head
  unfold readNumberOf
  rw [hbefore.found hb.blank]
  by_cases hnumeral : b = Mark.minus ∨ isDigit b = true
  · simp only [if_pos hnumeral]
    obtain ⟨number, hnumber, hread⟩ :
        ∃ number, number? value = some number ∧ readNumber (b :: more) = .ok (number, rest) := by
      cases h with
      | scalar hscalar =>
        cases hscalar with
        | null | true | false | string _ => exact absurd hnumeral (by decide)
        | @number _ _ _ number hliteral hvalue =>
          refine ⟨number, ?_, hliteral.readNumber hrest hvalue⟩
          cases number <;> rfl
      | emptyArray _ | array _ | emptyObject _ | object _ _ => exact absurd hnumeral (by decide)
    rw [hnumber, hread]
    exact .fits number
  · simp only [if_neg hnumeral]
    have hnone : number? value = none := by
      cases h with
      | scalar hscalar =>
        cases hscalar with
        | null | true | false | string _ => rfl
        | number hliteral _ =>
          obtain ⟨c, tail, heq, hc⟩ := hliteral.head
          cases heq
          exact absurd hc hnumeral
      | emptyArray _ | array _ | emptyObject _ | object _ _ => rfl
    obtain ⟨what, left, hmismatch⟩ := hmismatch
    rw [hnone, hmismatch]
    exact .mismatch what left

theorem readText_written {depth : Nat} {before text rest : List UInt8} {value : Value}
    (hbefore : Blanks before text) (h : Writes depth text (.value value) rest) (hrest : Ends rest) :
    Yields rest (text? value) (readText before) := by
  have hmismatch := mismatch_written h hrest "a string"
  obtain ⟨b, more, rfl, hb⟩ := h.head
  unfold readText
  rw [hbefore.found hb.blank]
  by_cases hquote : b = Mark.quote
  · simp only [if_pos hquote]
    subst hquote
    cases h with
    | scalar hscalar =>
      cases hscalar with
      | string hspells =>
        rw [readString_eq_ok_iff.mpr hspells]
        exact .fits _
      | number hliteral _ =>
        obtain ⟨c, tail, heq, hc⟩ := hliteral.head
        cases heq
        exact absurd hc (by decide)
  · simp only [if_neg hquote]
    have hnone : text? value = none := by
      cases h with
      | scalar hscalar =>
        cases hscalar with
        | string _ => exact absurd rfl hquote
        | null | true | false => rfl
        | @number _ _ _ number _ _ => cases number <;> rfl
      | emptyArray _ | array _ | emptyObject _ | object _ _ => rfl
    obtain ⟨what, left, hmismatch⟩ := hmismatch
    rw [hnone, hmismatch]
    exact .mismatch what left

/-! ### Members -/

/-- What each known key makes of a value: a change of the record, if the value has the type of the field. -/
abbrev View (ρ : Type) := String → Option (Value → Option (ρ → ρ))

/-- The field reads what the view makes of the value that stands there. -/
def Field.Reads (field : Field ρ) (fits : Value → Option (ρ → ρ)) : Prop :=
  ∀ {depth : Nat} {before text rest : List UInt8} {value : Value}, Blanks before text →
    Writes depth text (.value value) rest → Ends rest → Yields rest (fits value) (field.read before)

/-- The fields have the keys of the view and read what it makes of values. -/
structure Views (fields : List (Field ρ)) (view : View ρ) : Prop where
  unknown : ∀ key, view key = none → fields.find? (·.key == key) = none
  known : ∀ key fits, view key = some fits → ∃ field, fields.find? (·.key == key) = some field ∧ field.Reads fits

/-- The record that members make of another one, if their values have the types of the fields. -/
def assemble (view : View ρ) (record : ρ) : List (String × Value) → Option ρ
  | [] => some record
  | (key, value) :: rest =>
    match view key with
    | none => assemble view record rest
    | some fits => (fits value).bind fun change => assemble view (change record) rest

theorem readByKey_close {before rest : List UInt8} (h : Blanks before (Mark.closeObject :: rest))
    (fields : List (Field ρ)) (steps : Nat) (first : Bool) (seen : List String) (record : ρ) :
    readByKey fields (steps + 1) first seen record before = .ok (record, rest) := by
  unfold readByKey
  exact bind_eq_ok.mpr ⟨_, nextKey_close h first, rfl⟩

/-- One member of an object: the record goes on as the view makes it, and the key counts as seen if it is
    known. -/
theorem readByKey_member {fields : List (Field ρ)} {view : View ρ} (hviews : Views fields view)
    {first : Bool} {before text start after rest : List UInt8} {key : String} {value : Value} {depth : Nat}
    (hled : Led first before text) (hkeyed : Keyed text key start)
    (hvalue : Writes depth start (.value value) after) (hends : Ends after) {seen : List String}
    (hfresh : key ∉ seen) {record : ρ} {more : List (String × Value)} {steps : Nat}
    (hmore : ∀ seen' record', (∀ other ∈ seen', other = key ∨ other ∈ seen) →
      Yields rest (assemble view record' more) (readByKey fields steps false seen' record' after)) :
    Yields rest (assemble view record ((key, value) :: more))
      (readByKey fields (steps + 1) first seen record before) := by
  obtain ⟨keyText, afterKey, afterColon, hnext, hkey, hcolon, hstart⟩ := hled.keyed hkeyed
  unfold readByKey
  simp only [hnext, hkey, bind, Except.bind]
  cases hview : view key with
  | none =>
    simp only [hviews.unknown key hview, hcolon, skipValue_stepsFor hstart hvalue hends, assemble, hview]
    exact hmore seen record fun other hother => .inr hother
  | some fits =>
    obtain ⟨field, hfind, hreads⟩ := hviews.known key fits hview
    have hseen : seen.contains key = false := by
      rw [List.contains_eq_mem]
      exact decide_eq_false hfresh
    simp only [hfind, hseen, hcolon, assemble, hview, Bool.false_eq_true, if_false]
    have hyields := hreads hstart hvalue hends
    generalize hexpected : fits value = expected at hyields
    generalize hresult : field.read afterColon = result at hyields
    cases hyields with
    | fits change => exact hmore (key :: seen) (change record) fun other hother => List.mem_cons.mp hother
    | mismatch what left => exact .mismatch what left

/-- Members of which no key comes twice make the record that the view makes of them. -/
theorem readByKey_written {fields : List (Field ρ)} {view : View ρ} (hviews : Views fields view) {depth : Nat}
    {written : List (String × Value)} {text rest : List UInt8} (h : Writes depth text (.members written) rest)
    (hkeys : (written.map Prod.fst).Nodup) {first : Bool} {before : List UInt8} (hled : Led first before text)
    {seen : List String} (hfresh : ∀ key ∈ written.map Prod.fst, key ∉ seen) {steps : Nat}
    (hsteps : text.length ≤ steps + rest.length) (record : ρ) :
    Yields rest (assemble view record written) (readByKey fields steps first seen record before) := by
  induction written generalizing text first before seen steps record with
  | nil => cases h
  | cons member written ih =>
    cases h with
    | lastMember hkeyed hvalue hclose =>
      have hbegin := hkeyed.length_lt
      have hlength := hvalue.length_lt
      have hend := hclose.length_le
      simp only [List.length_cons] at hend
      obtain ⟨steps, rfl⟩ := Nat.exists_eq_add_of_le' (show 2 ≤ steps by omega)
      refine readByKey_member hviews hled hkeyed hvalue (ends_of_mark hclose (by decide))
        (hfresh _ List.mem_cons_self) fun seen' record' _ => ?_
      rw [readByKey_close hclose]
      exact .fits record'
    | member hkeyed hvalue hcomma hmore =>
      have hbegin := hkeyed.length_lt
      have hlength := hvalue.length_lt
      have hbetween := hcomma.length_le
      have hend := hmore.length_lt
      simp only [List.length_cons] at hbetween
      obtain ⟨steps, rfl⟩ := Nat.exists_eq_add_of_le' (show 1 ≤ steps by omega)
      obtain ⟨hfirst, hnodup⟩ := List.nodup_cons.mp hkeys
      refine readByKey_member hviews hled hkeyed hvalue (ends_of_mark hcomma (by decide))
        (hfresh _ List.mem_cons_self) fun seen' record' hseen' => ?_
      refine ih hmore hnodup (.comma hcomma) (fun key hkey hin => ?_) (by omega) record'
      rcases hseen' key hin with rfl | hin
      · exact hfirst hkey
      · exact hfresh key (List.mem_cons_of_mem _ hkey) hin

/-- An object is read as the record that the view makes of its members. -/
theorem ofFields_read_object {fields : List (Field ρ)} {view : View ρ} (hviews : Views fields view) {depth : Nat}
    {written : List (String × Value)} {before text rest : List UInt8}
    (hbefore : Blanks before (Mark.openObject :: text)) (h : Encloses depth text written rest)
    (hkeys : (written.map Prod.fst).Nodup) (name : String) (blank : ρ) :
    Yields rest (assemble view blank written) ((Schema.ofFields name blank fields).read before) := by
  unfold Schema.ofFields
  simp only [hbefore.found (show isBlank Mark.openObject = false by decide), if_true]
  cases h with
  | none hclose =>
    unfold stepsFor
    rw [readByKey_close hclose]
    exact .fits blank
  | some hwrites =>
    refine readByKey_written hviews hwrites hkeys .first (fun _ _ => List.not_mem_nil) ?_ blank
    unfold stepsFor
    omega

/-- A value that is neither an object nor an array is of the wrong type. -/
theorem ofFields_read_scalar {before text rest : List UInt8} {value : Value} (hbefore : Blanks before text)
    (h : Scalar text value rest) (hrest : Ends rest) (name : String) (blank : ρ) (fields : List (Field ρ)) :
    Yields rest none ((Schema.ofFields name blank fields).read before) := by
  have hwrites : Writes 0 text (.value value) rest := .scalar h
  obtain ⟨what, left, hmismatch⟩ := mismatch_written hwrites hrest ("struct " ++ name)
  obtain ⟨b, more, rfl, hb⟩ := h.head
  unfold Schema.ofFields
  simp only [hbefore.found hb.blank, if_neg hb.openObject, if_neg hb.openArray, hmismatch]
  exact .mismatch what left

/-! ### Snapshots -/

theorem mem_of_blanks {text more : List UInt8} {b : UInt8} (h : Blanks text (b :: more)) : b ∈ text := by
  generalize hstart : b :: more = start at h
  induction h with
  | none => exact hstart ▸ List.mem_cons_self
  | more _ _ ih => exact List.mem_cons_of_mem _ (ih hstart)

theorem not_all_isSpace {bytes more : List UInt8} {b : UInt8} (h : Blanks bytes (b :: more))
    (hb : StartsValue b) : ¬bytes.all isSpace = true := by
  intro hall
  have hspace := List.all_eq_true.mp hall b (mem_of_blanks h)
  rw [isSpace, hb.blank, Bool.false_or, beq_iff_eq] at hspace
  exact hb.formFeed hspace

/-- Null is decoded to the blank record. -/
theorem decode_null {bytes after : List UInt8} (hstart : Blanks bytes (0x6E :: (nullTail ++ after)))
    (hend : Blanks after []) (schema : Schema ρ) (snapshot : Snapshot) :
    decode schema snapshot bytes = .ok schema.blank := by
  have hread : readOptional schema bytes = .ok (schema.blank, after) := by
    unfold readOptional
    rw [hstart.found (by decide)]
    simp only [if_true, expectWord_append]
    rfl
  unfold decode
  rw [if_neg (not_all_isSpace hstart ⟨by decide, by decide, by decide⟩),
    readWhole_eq_ok_iff.mpr ⟨after, hread, hend⟩]
  rfl

/-- What else a whole text writes is decoded as the schema reads it. -/
theorem decode_of_yields {schema : Schema ρ} {bytes more after : List UInt8} {b : UInt8} {expected : Option ρ}
    (hstart : Blanks bytes (b :: more)) (hb : StartsValue b) (hnull : b ≠ 0x6E) (hend : Blanks after [])
    (h : Yields after expected (schema.read bytes)) (snapshot : Snapshot) :
    Decodes snapshot expected (decode schema snapshot bytes) := by
  have hread : readOptional schema bytes = schema.read bytes := by
    unfold readOptional
    rw [hstart.found hb.blank]
    simp only [if_neg hnull]
  unfold decode
  rw [if_neg (not_all_isSpace hstart hb)]
  generalize hresult : schema.read bytes = result at h
  cases h with
  | fits record =>
    rw [readWhole_eq_ok_iff.mpr ⟨after, hread.trans hresult, hend⟩]
    exact .fits record
  | mismatch what left =>
    unfold readWhole
    rw [hread, hresult]
    exact .mismatch what _ _

/-- A snapshot that denotes a value is decoded to the value, by the schema that takes any. -/
theorem decode_value {bytes : List UInt8} {value : Value} (h : Denotes nestingLimit bytes value)
    (snapshot : Snapshot) : decode Schema.value snapshot bytes = .ok value := by
  obtain ⟨start, after, hstart, hwrites, hend⟩ := h
  obtain ⟨b, more, rfl, hb⟩ := hwrites.head
  by_cases hnull : b = 0x6E
  · subst hnull
    obtain ⟨rfl, rfl⟩ := hwrites.eq_null
    exact decode_null hstart hend Schema.value snapshot
  · have hread : Schema.value.read bytes = .ok (value, after) :=
      readValue_stepsFor hstart hwrites (ends_of_blanks hend)
    have hyields : Yields after (some value) (Schema.value.read bytes) := hread ▸ .fits value
    have hdecodes := decode_of_yields hstart hb hnull hend hyields snapshot
    generalize decode Schema.value snapshot bytes = result at hdecodes
    cases hdecodes
    rfl

end RecordGate.Record
