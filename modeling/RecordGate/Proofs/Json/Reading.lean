import RecordGate.Json.Reader
import RecordGate.Proofs.Json.Members
import RecordGate.Proofs.Json.Numeral
import RecordGate.Proofs.Json.Strings

/-! # Reading what a text writes

The reader reads a text as a value exactly if the text denotes the value, with no more arrays and objects
nested than the reader allows (`parse_eq_ok_iff`). One direction follows how the text writes the value, and
shows on the way that twice the length of the text is enough of steps (`Writes.read`); the other follows the
steps of the reader (`written_of_readValue`). -/

namespace RecordGate.Json

/-! ### Blanks -/

theorem skipBlanks_cons {b : UInt8} (hb : isBlank b = false) (rest : List UInt8) :
    skipBlanks (b :: rest) = b :: rest :=
  List.dropWhile_cons_of_neg (ne_true_of_eq_false hb)

theorem Blanks.skipBlanks {text rest : List UInt8} (h : Blanks text rest) :
    skipBlanks text = skipBlanks rest := by
  induction h with
  | none => rfl
  | more hb _ ih => exact (List.dropWhile_cons_of_pos hb).trans ih

/-- Behind blanks a reader finds the first byte that is none. -/
theorem Blanks.found {text rest : List UInt8} {b : UInt8} (h : Blanks text (b :: rest)) (hb : isBlank b = false) :
    Json.skipBlanks text = b :: rest :=
  h.skipBlanks.trans (skipBlanks_cons hb rest)

theorem blanks_skipBlanks (text : List UInt8) : Blanks text (skipBlanks text) := by
  induction text with
  | nil => exact .none
  | cons b text ih =>
    by_cases hb : isBlank b = true
    · exact .more hb ((show skipBlanks (b :: text) = skipBlanks text from List.dropWhile_cons_of_pos hb) ▸ ih)
    · rw [skipBlanks_cons (eq_false_of_ne_true hb)]
      exact .none

theorem blanks_of_skipBlanks {text rest : List UInt8} (h : skipBlanks text = rest) : Blanks text rest :=
  h ▸ blanks_skipBlanks text

theorem Blanks.trans {text middle rest : List UInt8} (h : Blanks text middle) (h' : Blanks middle rest) :
    Blanks text rest := by
  induction h with
  | none => exact h'
  | more hb _ ih => exact .more hb (ih h')

/-- A numeral ends in front of a mark, also with blanks between. -/
theorem ends_of_mark {b : UInt8} {text rest : List UInt8} (h : Blanks text (b :: rest))
    (hb : isDigit b = false ∧ b ≠ Mark.point ∧ b ≠ 0x65 ∧ b ≠ 0x45) : Ends text :=
  (ends_cons hb).blanks h

theorem ends_of_blanks {text : List UInt8} (h : Blanks text []) : Ends text :=
  ends_nil.blanks h

/-! ### Scalars -/

theorem expectWord_append (word rest : List UInt8) : expectWord word (word ++ rest) = .ok rest := by
  induction word with
  | nil => rfl
  | cons b word ih =>
    rw [List.cons_append, expectWord, if_pos rfl]
    exact ih

theorem eq_append_of_expectWord {word text rest : List UInt8} (h : expectWord word text = .ok rest) :
    text = word ++ rest := by
  induction word generalizing text with
  | nil =>
    cases h
    rfl
  | cons w word ih =>
    cases text with
    | nil => cases h
    | cons b text =>
      unfold expectWord at h
      split at h
      · next hb => rw [hb, ih h, List.cons_append]
      · cases h

/-- A byte that a numeral may start with is none of the others that a value may start with, and no mark that
    stands behind a value. -/
theorem ne_of_numeral {b : UInt8} (hb : b = Mark.minus ∨ isDigit b = true) (mark : UInt8)
    (hminus : mark ≠ Mark.minus) (hdigit : isDigit mark = false) : b ≠ mark := by
  rintro rfl
  rcases hb with hb | hb
  · exact hminus hb
  · rw [hdigit] at hb
    cases hb

theorem readScalar_numeral {b : UInt8} (hb : b = Mark.minus ∨ isDigit b = true) (text : List UInt8) :
    readScalar (b :: text) = (readNumber (b :: text)).map fun (number, rest) => (number.toValue, rest) := by
  unfold readScalar
  simp only [if_neg (ne_of_numeral hb 0x6E (by decide) rfl),
    if_neg (ne_of_numeral hb 0x74 (by decide) rfl),
    if_neg (ne_of_numeral hb 0x66 (by decide) rfl),
    if_neg (ne_of_numeral hb Mark.quote (by decide) rfl), if_pos hb]

/-- A scalar is read as its value. -/
theorem Scalar.readScalar {text rest : List UInt8} {value : Value} (h : Scalar text value rest)
    (hrest : Ends rest) : readScalar text = .ok (value, rest) := by
  cases h with
  | null => exact map_eq_ok.mpr ⟨_, expectWord_append nullTail rest, rfl⟩
  | true => exact map_eq_ok.mpr ⟨_, expectWord_append trueTail rest, rfl⟩
  | false => exact map_eq_ok.mpr ⟨_, expectWord_append falseTail rest, rfl⟩
  | string hspells => exact map_eq_ok.mpr ⟨_, readString_eq_ok_iff.mpr hspells, rfl⟩
  | number hnumeral hvalue =>
    obtain ⟨b, more, rfl, hb⟩ := hnumeral.head
    rw [readScalar_numeral hb]
    exact map_eq_ok.mpr ⟨_, hnumeral.readNumber hrest hvalue, rfl⟩

theorem scalar_of_readScalar {text rest : List UInt8} {value : Value} (h : readScalar text = .ok (value, rest)) :
    Scalar text value rest := by
  unfold Json.readScalar at h
  split at h
  · cases h
  · split at h
    · next hb =>
      obtain ⟨after, hword, h⟩ := map_eq_ok.mp h
      cases h
      rw [hb, eq_append_of_expectWord hword]
      exact .null
    · split at h
      · next hb =>
        obtain ⟨after, hword, h⟩ := map_eq_ok.mp h
        cases h
        rw [hb, eq_append_of_expectWord hword]
        exact .true
      · split at h
        · next hb =>
          obtain ⟨after, hword, h⟩ := map_eq_ok.mp h
          cases h
          rw [hb, eq_append_of_expectWord hword]
          exact .false
        · split at h
          · next hb =>
            obtain ⟨⟨s, after⟩, hstring, h⟩ := map_eq_ok.mp h
            cases h
            rw [hb]
            exact .string (readString_eq_ok_iff.mp hstring)
          · split at h
            · obtain ⟨⟨number, after⟩, hnumber, h⟩ := map_eq_ok.mp h
              cases h
              obtain ⟨literal, hnumeral, hvalue⟩ := numeral_of_readNumber hnumber
              exact .number hnumeral hvalue
            · cases h

/-! ### Where values start -/

/-- A byte that a value may start with: it is no blank, nor a form feed, nor the end of an array. -/
structure StartsValue (b : UInt8) : Prop where
  blank : isBlank b = false
  formFeed : b ≠ 0x0C
  closeArray : b ≠ Mark.closeArray

/-- A byte that a scalar may start with. -/
structure StartsScalar (b : UInt8) : Prop extends StartsValue b where
  openArray : b ≠ Mark.openArray
  openObject : b ≠ Mark.openObject

theorem startsScalar_numeral {b : UInt8} (hb : b = Mark.minus ∨ isDigit b = true) : StartsScalar b where
  blank := by
    refine eq_false_of_ne_true fun hblank => ?_
    rcases hb with rfl | hb
    · exact absurd hblank (by decide)
    · rw [(isDigit_of_isBlank hblank).1] at hb
      cases hb
  formFeed := ne_of_numeral hb _ (by decide) rfl
  closeArray := ne_of_numeral hb _ (by decide) rfl
  openArray := ne_of_numeral hb _ (by decide) rfl
  openObject := ne_of_numeral hb _ (by decide) rfl

theorem Scalar.head {text rest : List UInt8} {value : Value} (h : Scalar text value rest) :
    ∃ b more, text = b :: more ∧ StartsScalar b := by
  cases h with
  | null | true | false | string _ =>
    exact ⟨_, _, rfl, ⟨by decide, by decide, by decide⟩, by decide, by decide⟩
  | number hnumeral _ =>
    obtain ⟨b, more, heq, hb⟩ := hnumeral.head
    exact ⟨b, more, heq, startsScalar_numeral hb⟩

theorem Writes.head {depth : Nat} {text rest : List UInt8} {value : Value}
    (h : Writes depth text (.value value) rest) : ∃ b more, text = b :: more ∧ StartsValue b := by
  cases h with
  | scalar hscalar =>
    obtain ⟨b, more, heq, hb⟩ := hscalar.head
    exact ⟨b, more, heq, hb.toStartsValue⟩
  | emptyArray _ | array _ | emptyObject _ | object _ _ =>
    exact ⟨_, _, rfl, by decide, by decide, by decide⟩

/-- Only null starts with its letter. -/
theorem Writes.eq_null {depth : Nat} {more rest : List UInt8} {value : Value}
    (h : Writes depth (0x6E :: more) (.value value) rest) : value = .null ∧ more = nullTail ++ rest := by
  generalize htext : 0x6E :: more = text at h
  cases h with
  | scalar hscalar =>
    cases hscalar with
    | null => exact ⟨rfl, (List.cons.inj htext).2⟩
    | true | false | string _ => exact absurd (List.cons.inj htext).1 (by decide)
    | number hnumeral _ =>
      obtain ⟨b, tail, rfl, hb⟩ := hnumeral.head
      exact absurd (List.cons.inj htext).1.symm (ne_of_numeral hb 0x6E (by decide) rfl)
  | emptyArray _ | array _ | emptyObject _ | object _ _ => exact absurd (List.cons.inj htext).1 (by decide)

/-! ### Between items and members -/

/-- What leads to an entry of a list: nothing at its beginning, and a comma behind another entry. -/
inductive Led : (first : Bool) → List UInt8 → List UInt8 → Prop where
  | first {text : List UInt8} : Led true text text
  | comma {before text : List UInt8} : Blanks before (Mark.comma :: text) → Led false before text

theorem Led.nextItem {first : Bool} {before text more : List UInt8} {b : UInt8} (h : Led first before text)
    (hstart : Blanks text (b :: more)) (hblank : isBlank b = false) (hclose : b ≠ Mark.closeArray) :
    nextItem first before = .ok (.entry (b :: more)) := by
  unfold Json.nextItem
  cases h with
  | first => simp only [hstart.found hblank, if_neg hclose, if_true]
  | comma hcomma =>
    rw [hcomma.found (by decide)]
    simp only [if_neg (show Mark.comma ≠ Mark.closeArray by decide), Bool.false_eq_true, if_false, if_true,
      hstart.found hblank, if_neg hclose]

theorem Led.nextKey {first : Bool} {before text more : List UInt8} (h : Led first before text)
    (hstart : Blanks text (Mark.quote :: more)) : nextKey first before = .ok (.entry more) := by
  unfold Json.nextKey
  cases h with
  | first =>
    rw [hstart.found (by decide)]
    simp only [if_neg (show Mark.quote ≠ Mark.closeObject by decide), if_true]
  | comma hcomma =>
    rw [hcomma.found (by decide)]
    simp only [if_neg (show Mark.comma ≠ Mark.closeObject by decide), Bool.false_eq_true, if_false, if_true,
      hstart.found (show isBlank Mark.quote = false by decide)]

theorem nextItem_close {before rest : List UInt8} (h : Blanks before (Mark.closeArray :: rest)) (first : Bool) :
    nextItem first before = .ok (.close rest) := by
  unfold nextItem
  rw [h.found (by decide)]
  simp only [if_true]

theorem nextKey_close {before rest : List UInt8} (h : Blanks before (Mark.closeObject :: rest)) (first : Bool) :
    nextKey first before = .ok (.close rest) := by
  unfold nextKey
  rw [h.found (by decide)]
  simp only [if_true]

theorem led_of_nextItem {first : Bool} {before start : List UInt8}
    (h : nextItem first before = .ok (.entry start)) : ∃ text, Led first before text ∧ Blanks text start := by
  unfold nextItem at h
  split at h
  · cases h
  · next hskip =>
    have hblanks := blanks_of_skipBlanks hskip
    split at h
    · cases h
    · split at h
      · next hfirst =>
        cases h
        rw [hfirst]
        exact ⟨before, .first, hblanks⟩
      · next hfirst =>
        rw [eq_false_of_ne_true hfirst]
        split at h
        · next hcomma =>
          split at h
          · cases h
          · next hnext =>
            split at h
            · cases h
            · cases h
              exact ⟨_, .comma (hcomma ▸ hblanks), blanks_of_skipBlanks hnext⟩
        · cases h

theorem close_of_nextItem {first : Bool} {before rest : List UInt8}
    (h : nextItem first before = .ok (.close rest)) : Blanks before (Mark.closeArray :: rest) := by
  unfold nextItem at h
  split at h
  · cases h
  · next hskip =>
    split at h
    · next hclose =>
      cases h
      exact blanks_of_skipBlanks (hclose ▸ hskip)
    · split at h
      · cases h
      · split at h
        · split at h
          · cases h
          · split at h <;> cases h
        · cases h

theorem led_of_nextKey {first : Bool} {before more : List UInt8}
    (h : nextKey first before = .ok (.entry more)) :
    ∃ text, Led first before text ∧ Blanks text (Mark.quote :: more) := by
  unfold nextKey at h
  split at h
  · cases h
  · next hskip =>
    have hblanks := blanks_of_skipBlanks hskip
    split at h
    · cases h
    · split at h
      · next hfirst =>
        split at h
        · next hquote =>
          cases h
          rw [hfirst]
          exact ⟨before, .first, hquote ▸ hblanks⟩
        · cases h
      · next hfirst =>
        rw [eq_false_of_ne_true hfirst]
        split at h
        · next hcomma =>
          split at h
          · cases h
          · next hnext =>
            split at h
            · next hquote =>
              cases h
              exact ⟨_, .comma (hcomma ▸ hblanks), blanks_of_skipBlanks (hquote ▸ hnext)⟩
            · split at h <;> cases h
        · cases h

theorem close_of_nextKey {first : Bool} {before rest : List UInt8}
    (h : nextKey first before = .ok (.close rest)) : Blanks before (Mark.closeObject :: rest) := by
  unfold nextKey at h
  split at h
  · cases h
  · next hskip =>
    split at h
    · next hclose =>
      cases h
      exact blanks_of_skipBlanks (hclose ▸ hskip)
    · split at h
      · split at h <;> cases h
      · split at h
        · split at h
          · cases h
          · split at h
            · cases h
            · split at h <;> cases h
        · cases h

theorem expectColon_of_blanks {text rest : List UInt8} (h : Blanks text (Mark.colon :: rest)) :
    expectColon text = .ok rest := by
  unfold expectColon
  rw [h.found (by decide)]
  simp only [if_true]

theorem blanks_of_expectColon {text rest : List UInt8} (h : expectColon text = .ok rest) :
    Blanks text (Mark.colon :: rest) := by
  unfold expectColon at h
  split at h
  · cases h
  · next hskip =>
    split at h
    · next hcolon =>
      cases h
      exact blanks_of_skipBlanks (hcolon ▸ hskip)
    · cases h

/-! ### What is written is read -/

/-- How each part is read: a value behind blanks, items and members from what leads to them. -/
def Part.Read (depth : Nat) (text : List UInt8) (part : Part) (rest : List UInt8) : Prop :=
  match part with
  | .value result => ∀ {steps : Nat} {before : List UInt8}, 2 * text.length ≤ steps + 2 * rest.length →
      Ends rest → Blanks before text → readValue steps depth before = .ok (result, rest)
  | .items results => ∀ {steps : Nat} {first : Bool} {before : List UInt8},
      2 * text.length ≤ steps + 2 * rest.length → Led first before text →
      readItems steps depth first before = .ok (results, rest)
  | .members written => ∀ {steps : Nat} {first : Bool} {before : List UInt8} {members : List (String × Value)},
      2 * text.length ≤ steps + 2 * rest.length → Led first before text →
      readMembers steps depth first members before = .ok (collect members written, rest)

theorem Led.keyed {first : Bool} {before text start : List UInt8} {key : String} (h : Led first before text)
    (hkeyed : Keyed text key start) : ∃ keyText afterKey afterColon,
      Json.nextKey first before = .ok (.entry keyText) ∧ readString keyText = .ok (key, afterKey) ∧
      expectColon afterKey = .ok afterColon ∧ Blanks afterColon start := by
  cases hkeyed with
  | mk hquote hspells hcolon hstart =>
    exact ⟨_, _, _, h.nextKey hquote, readString_eq_ok_iff.mpr hspells, expectColon_of_blanks hcolon, hstart⟩

theorem readValue_scalar {text rest before : List UInt8} {value : Value} (h : Scalar text value rest)
    (hrest : Ends rest) (hbefore : Blanks before text) (steps depth : Nat) :
    readValue (steps + 1) depth before = .ok (value, rest) := by
  obtain ⟨b, more, rfl, hb⟩ := h.head
  unfold readValue
  rw [hbefore.found hb.blank]
  simp only [if_neg hb.openArray, if_neg hb.openObject]
  exact h.readScalar hrest

theorem readValue_array {text rest before : List UInt8} {items : List Value} {steps depth : Nat}
    (h : readItems steps depth true text = .ok (items, rest)) (hbefore : Blanks before (Mark.openArray :: text)) :
    readValue (steps + 1) (depth + 1) before = .ok (.array items, rest) := by
  unfold readValue
  rw [hbefore.found (by decide)]
  simp only [if_true]
  exact bind_eq_ok.mpr ⟨_, h, rfl⟩

theorem readValue_object {text rest before : List UInt8} {members : List (String × Value)} {steps depth : Nat}
    (h : readMembers steps depth true [] text = .ok (members, rest))
    (hbefore : Blanks before (Mark.openObject :: text)) :
    readValue (steps + 1) (depth + 1) before = .ok (.object members, rest) := by
  unfold readValue
  rw [hbefore.found (by decide)]
  simp only [if_neg (show Mark.openObject ≠ Mark.openArray by decide), if_true]
  exact bind_eq_ok.mpr ⟨_, h, rfl⟩

theorem readItems_close {before rest : List UInt8} (h : Blanks before (Mark.closeArray :: rest))
    (steps depth : Nat) (first : Bool) : readItems (steps + 1) depth first before = .ok ([], rest) := by
  unfold readItems
  exact bind_eq_ok.mpr ⟨_, nextItem_close h first, rfl⟩

theorem readMembers_close {before rest : List UInt8} (h : Blanks before (Mark.closeObject :: rest))
    (steps depth : Nat) (first : Bool) (members : List (String × Value)) :
    readMembers (steps + 1) depth first members before = .ok (members, rest) := by
  unfold readMembers
  exact bind_eq_ok.mpr ⟨_, nextKey_close h first, rfl⟩

theorem readItems_entry {first : Bool} {before start after rest : List UInt8} {value : Value}
    {items : List Value} {steps depth : Nat} (hnext : nextItem first before = .ok (.entry start))
    (hvalue : readValue steps depth start = .ok (value, after))
    (hitems : readItems steps depth false after = .ok (items, rest)) :
    readItems (steps + 1) depth first before = .ok (value :: items, rest) := by
  unfold readItems
  exact bind_eq_ok.mpr ⟨_, hnext, bind_eq_ok.mpr ⟨_, hvalue, bind_eq_ok.mpr ⟨_, hitems, rfl⟩⟩⟩

/-- What a text writes is read, in at most twice as many steps as it has bytes. -/
theorem Writes.read {depth : Nat} {text rest : List UInt8} {part : Part} (h : Writes depth text part rest) :
    part.Read depth text rest := by
  induction h with
  | scalar hscalar =>
    intro steps before hsteps hrest hbefore
    have hlength := hscalar.length_lt
    obtain ⟨steps, rfl⟩ := Nat.exists_eq_add_of_le' (show 1 ≤ steps by omega)
    exact readValue_scalar hscalar hrest hbefore steps _
  | emptyArray hclose =>
    intro steps before hsteps hrest hbefore
    have hlength := hclose.length_le
    simp only [List.length_cons] at hsteps hlength
    obtain ⟨steps, rfl⟩ := Nat.exists_eq_add_of_le' (show 2 ≤ steps by omega)
    exact readValue_array (readItems_close hclose steps _ true) hbefore
  | array hitems ih =>
    intro steps before hsteps hrest hbefore
    have hlength := hitems.length_lt
    simp only [List.length_cons] at hsteps
    obtain ⟨steps, rfl⟩ := Nat.exists_eq_add_of_le' (show 1 ≤ steps by omega)
    exact readValue_array (ih (by omega) .first) hbefore
  | lastItem hstart hvalue hclose ih =>
    intro steps first before hsteps hled
    have hbegin := hstart.length_le
    have hlength := hvalue.length_lt
    have hend := hclose.length_le
    simp only [List.length_cons] at hend
    obtain ⟨steps, rfl⟩ := Nat.exists_eq_add_of_le' (show 2 ≤ steps by omega)
    obtain ⟨b, more, rfl, hb⟩ := hvalue.head
    refine readItems_entry (hled.nextItem hstart hb.blank hb.closeArray) (ih (by omega) ?_ .none)
      (readItems_close hclose steps _ false)
    exact ends_of_mark hclose (by decide)
  | item hstart hvalue hcomma hmore ihvalue ihmore =>
    intro steps first before hsteps hled
    have hbegin := hstart.length_le
    have hlength := hvalue.length_lt
    have hbetween := hcomma.length_le
    have hend := hmore.length_lt
    simp only [List.length_cons] at hbetween
    obtain ⟨steps, rfl⟩ := Nat.exists_eq_add_of_le' (show 1 ≤ steps by omega)
    obtain ⟨b, more, rfl, hb⟩ := hvalue.head
    refine readItems_entry (hled.nextItem hstart hb.blank hb.closeArray) (ihvalue (by omega) ?_ .none)
      (ihmore (by omega) (.comma hcomma))
    exact ends_of_mark hcomma (by decide)
  | emptyObject hclose =>
    intro steps before hsteps hrest hbefore
    have hlength := hclose.length_le
    simp only [List.length_cons] at hsteps hlength
    obtain ⟨steps, rfl⟩ := Nat.exists_eq_add_of_le' (show 2 ≤ steps by omega)
    exact readValue_object (readMembers_close hclose steps _ true []) hbefore
  | object hmembers hcollected ih =>
    intro steps before hsteps hrest hbefore
    have hlength := hmembers.length_lt
    simp only [List.length_cons] at hsteps
    obtain ⟨steps, rfl⟩ := Nat.exists_eq_add_of_le' (show 1 ≤ steps by omega)
    refine readValue_object ?_ hbefore
    rw [← hcollected.collect_eq]
    exact ih (by omega) .first
  | lastMember hkeyed hvalue hclose ih =>
    intro steps first before members hsteps hled
    have hbegin := hkeyed.length_lt
    have hlength := hvalue.length_lt
    have hend := hclose.length_le
    simp only [List.length_cons] at hend
    obtain ⟨steps, rfl⟩ := Nat.exists_eq_add_of_le' (show 2 ≤ steps by omega)
    obtain ⟨keyText, afterKey, afterColon, hnext, hkey, hcolon, hstart⟩ := hled.keyed hkeyed
    have hends := ends_of_mark hclose (by decide)
    unfold readMembers
    exact bind_eq_ok.mpr ⟨_, hnext, bind_eq_ok.mpr ⟨_, hkey, bind_eq_ok.mpr ⟨_, hcolon,
      bind_eq_ok.mpr ⟨_, ih (by omega) hends hstart, readMembers_close hclose steps _ false _⟩⟩⟩⟩
  | member hkeyed hvalue hcomma hmore ihvalue ihmore =>
    intro steps first before members hsteps hled
    have hbegin := hkeyed.length_lt
    have hlength := hvalue.length_lt
    have hbetween := hcomma.length_le
    have hend := hmore.length_lt
    simp only [List.length_cons] at hbetween
    obtain ⟨steps, rfl⟩ := Nat.exists_eq_add_of_le' (show 1 ≤ steps by omega)
    obtain ⟨keyText, afterKey, afterColon, hnext, hkey, hcolon, hstart⟩ := hled.keyed hkeyed
    have hends := ends_of_mark hcomma (by decide)
    unfold readMembers
    exact bind_eq_ok.mpr ⟨_, hnext, bind_eq_ok.mpr ⟨_, hkey, bind_eq_ok.mpr ⟨_, hcolon,
      bind_eq_ok.mpr ⟨_, ihvalue (by omega) hends hstart, ihmore (by omega) (.comma hcomma)⟩⟩⟩⟩

/-! ### What is read is written -/

theorem keyed_of_read {text keyText afterKey afterColon start : List UInt8} {key : String}
    (hquote : Blanks text (Mark.quote :: keyText)) (hkey : readString keyText = .ok (key, afterKey))
    (hcolon : expectColon afterKey = .ok afterColon) (hstart : Blanks afterColon start) :
    Keyed text key start :=
  .mk hquote (readString_eq_ok_iff.mp hkey) (blanks_of_expectColon hcolon) hstart

mutual
theorem written_of_readValue {steps depth : Nat} {before rest : List UInt8} {value : Value}
    (h : readValue steps depth before = .ok (value, rest)) :
    ∃ text, Blanks before text ∧ Writes depth text (.value value) rest := by
  match steps with
  | 0 => cases h
  | steps + 1 =>
    unfold readValue at h
    split at h
    · cases h
    · next hskip =>
      refine ⟨_, blanks_of_skipBlanks hskip, ?_⟩
      split at h
      · next harray =>
        rw [harray]
        split at h
        · cases h
        · obtain ⟨⟨items, after⟩, hitems, h⟩ := bind_eq_ok.mp h
          cases h
          rcases written_of_readItems hitems with ⟨text, hled, hwrites⟩ | ⟨rfl, hclose⟩
          · cases hled
            exact .array hwrites
          · exact .emptyArray hclose
      · split at h
        · next hobject =>
          rw [hobject]
          split at h
          · cases h
          · obtain ⟨⟨members, after⟩, hmembers, h⟩ := bind_eq_ok.mp h
            cases h
            rcases written_of_readMembers hmembers with ⟨text, written, hled, hwrites, rfl⟩ | ⟨rfl, hclose⟩
            · cases hled
              exact .object hwrites (collected_collect written)
            · exact .emptyObject hclose
        · exact .scalar (scalar_of_readScalar h)

theorem written_of_readItems {steps depth : Nat} {first : Bool} {before rest : List UInt8} {items : List Value}
    (h : readItems steps depth first before = .ok (items, rest)) :
    (∃ text, Led first before text ∧ Writes depth text (.items items) rest) ∨
      items = [] ∧ Blanks before (Mark.closeArray :: rest) := by
  match steps with
  | 0 => cases h
  | steps + 1 =>
    unfold readItems at h
    obtain ⟨next, hnext, h⟩ := bind_eq_ok.mp h
    cases next with
    | close closed =>
      cases h
      exact .inr ⟨rfl, close_of_nextItem hnext⟩
    | entry entry =>
      obtain ⟨⟨item, after⟩, hitem, h⟩ := bind_eq_ok.mp h
      obtain ⟨⟨more, afterMore⟩, hmore, h⟩ := bind_eq_ok.mp h
      cases h
      obtain ⟨text, hled, hentry⟩ := led_of_nextItem hnext
      obtain ⟨start, hstart, hvalue⟩ := written_of_readValue hitem
      refine .inl ⟨text, hled, ?_⟩
      rcases written_of_readItems hmore with ⟨others, hcomma, hwrites⟩ | ⟨rfl, hclose⟩
      · cases hcomma with
        | comma hcomma => exact .item (hentry.trans hstart) hvalue hcomma hwrites
      · exact .lastItem (hentry.trans hstart) hvalue hclose

theorem written_of_readMembers {steps depth : Nat} {first : Bool} {before rest : List UInt8}
    {members result : List (String × Value)}
    (h : readMembers steps depth first members before = .ok (result, rest)) :
    (∃ text written, Led first before text ∧ Writes depth text (.members written) rest ∧
        result = collect members written) ∨
      result = members ∧ Blanks before (Mark.closeObject :: rest) := by
  match steps with
  | 0 => cases h
  | steps + 1 =>
    unfold readMembers at h
    obtain ⟨next, hnext, h⟩ := bind_eq_ok.mp h
    cases next with
    | close closed =>
      cases h
      exact .inr ⟨rfl, close_of_nextKey hnext⟩
    | entry entry =>
      obtain ⟨⟨key, afterKey⟩, hkey, h⟩ := bind_eq_ok.mp h
      obtain ⟨afterColon, hcolon, h⟩ := bind_eq_ok.mp h
      obtain ⟨⟨value, after⟩, hread, h⟩ := bind_eq_ok.mp h
      obtain ⟨text, hled, hentry⟩ := led_of_nextKey hnext
      obtain ⟨start, hstart, hvalue⟩ := written_of_readValue hread
      have hkeyed := keyed_of_read hentry hkey hcolon hstart
      rcases written_of_readMembers h with ⟨others, written, hcomma, hwrites, rfl⟩ | ⟨rfl, hclose⟩
      · cases hcomma with
        | comma hcomma =>
          exact .inl ⟨text, (key, value) :: written, hled, .member hkeyed hvalue hcomma hwrites, rfl⟩
      · exact .inl ⟨text, [(key, value)], hled, .lastMember hkeyed hvalue hclose, rfl⟩
end

/-! ### Whole texts -/

theorem expectEnd_eq_ok_iff {text : List UInt8} : expectEnd text = .ok () ↔ Blanks text [] := by
  unfold expectEnd
  constructor
  · intro h
    split at h
    · next hskip => exact blanks_of_skipBlanks hskip
    · cases h
  · intro h
    rw [h.skipBlanks]
    rfl

theorem readWhole_eq_ok_iff {α : Type} {read : List UInt8 → Except Fault (α × List UInt8)} {text : List UInt8}
    {result : α} :
    readWhole read text = .ok result ↔ ∃ after, read text = .ok (result, after) ∧ Blanks after [] := by
  unfold readWhole
  simp only [mapError_eq_ok]
  constructor
  · intro h
    obtain ⟨⟨result, after⟩, hread, h⟩ := bind_eq_ok.mp h
    obtain ⟨⟨⟩, hend, h⟩ := bind_eq_ok.mp h
    cases h
    exact ⟨after, hread, expectEnd_eq_ok_iff.mp hend⟩
  · rintro ⟨after, hread, hend⟩
    exact bind_eq_ok.mpr ⟨_, hread, bind_eq_ok.mpr ⟨_, expectEnd_eq_ok_iff.mpr hend, rfl⟩⟩

theorem readValue_stepsFor {text start rest : List UInt8} {depth : Nat} {value : Value}
    (hstart : Blanks text start) (h : Writes depth start (.value value) rest) (hrest : Ends rest) :
    readValue (stepsFor text) depth text = .ok (value, rest) := by
  have hlength := hstart.length_le
  refine h.read ?_ hrest hstart
  unfold stepsFor
  omega

/-- A text is read as the value that it denotes. -/
theorem readWhole_readValue_eq_ok_iff {depth : Nat} {text : List UInt8} {value : Value} :
    readWhole (readValue (stepsFor text) depth) text = .ok value ↔ Denotes depth text value := by
  rw [readWhole_eq_ok_iff]
  constructor
  · rintro ⟨after, hread, hend⟩
    obtain ⟨start, hstart, hwrites⟩ := written_of_readValue hread
    exact ⟨start, after, hstart, hwrites, hend⟩
  · rintro ⟨start, after, hstart, hwrites, hend⟩
    exact ⟨after, readValue_stepsFor hstart hwrites (ends_of_blanks hend), hend⟩

theorem parse_eq_ok_iff {text : List UInt8} {value : Value} :
    parse text = .ok value ↔ Denotes nestingLimit text value :=
  readWhole_readValue_eq_ok_iff

/-- A text denotes at most one value. -/
theorem Denotes.unique {depth : Nat} {text : List UInt8} {value other : Value} (h : Denotes depth text value)
    (h' : Denotes depth text other) : value = other :=
  Except.ok.inj ((readWhole_readValue_eq_ok_iff.mpr h).symm.trans (readWhole_readValue_eq_ok_iff.mpr h'))

/-! ### What is written is in order -/

theorem orderedMembers_iff {members : List (String × Value)} :
    Value.OrderedMembers members ↔ ∀ member ∈ members, member.2.Ordered := by
  induction members with
  | nil => exact ⟨fun _ _ h => (List.not_mem_nil h).elim, fun _ => trivial⟩
  | cons member members ih =>
    rw [List.forall_mem_cons]
    exact and_congr_right' ih

theorem nestingOfMembers_le_iff {members : List (String × Value)} {depth : Nat} :
    Value.nestingOfMembers members ≤ depth ↔ ∀ member ∈ members, member.2.nesting ≤ depth := by
  induction members with
  | nil => exact ⟨fun _ _ h => (List.not_mem_nil h).elim, fun _ => Nat.zero_le _⟩
  | cons member members ih =>
    rw [List.forall_mem_cons]
    exact Nat.max_le.trans (and_congr_right' ih)

/-- A part of which every object is in order, and that nests no more than `depth` arrays and objects. -/
def Part.Settled (depth : Nat) : Part → Prop
  | .value result => result.Ordered ∧ result.nesting ≤ depth
  | .items results => Value.OrderedItems results ∧ Value.nestingOfItems results ≤ depth
  | .members written => Value.OrderedMembers written ∧ Value.nestingOfMembers written ≤ depth

theorem settled_of_flat {value : Value} (h : value.isComposite = false) : value.Ordered ∧ value.nesting = 0 := by
  cases value with
  | array | object => cases h
  | null | bool | int | double | string => exact ⟨trivial, rfl⟩

theorem Scalar.flat {text rest : List UInt8} {value : Value} (h : Scalar text value rest) :
    value.isComposite = Bool.false := by
  cases h with
  | null | true | false | string _ => rfl
  | @number _ _ _ number _ _ => cases number <;> rfl

theorem Writes.settled {depth : Nat} {text rest : List UInt8} {part : Part} (h : Writes depth text part rest) :
    part.Settled depth := by
  induction h with
  | scalar hscalar =>
    obtain ⟨hordered, hnesting⟩ := settled_of_flat hscalar.flat
    exact ⟨hordered, hnesting ▸ Nat.zero_le _⟩
  | emptyArray _ => exact ⟨trivial, Nat.succ_le_succ (Nat.zero_le _)⟩
  | array _ ih => exact ⟨ih.1, Nat.succ_le_succ ih.2⟩
  | lastItem _ _ _ ih => exact ⟨⟨ih.1, trivial⟩, Nat.max_le.mpr ⟨ih.2, Nat.zero_le _⟩⟩
  | item _ _ _ _ ihvalue ihmore => exact ⟨⟨ihvalue.1, ihmore.1⟩, Nat.max_le.mpr ⟨ihvalue.2, ihmore.2⟩⟩
  | emptyObject _ => exact ⟨⟨.nil, trivial⟩, Nat.succ_le_succ (Nat.zero_le _)⟩
  | object _ hcollected ih =>
    have hordered := orderedMembers_iff.mp ih.1
    have hnesting := nestingOfMembers_le_iff.mp ih.2
    exact ⟨⟨hcollected.ordered, orderedMembers_iff.mpr fun member h => hordered member (hcollected.mem h)⟩,
      Nat.succ_le_succ (nestingOfMembers_le_iff.mpr fun member h => hnesting member (hcollected.mem h))⟩
  | lastMember _ _ _ ih => exact ⟨⟨ih.1, trivial⟩, Nat.max_le.mpr ⟨ih.2, Nat.zero_le _⟩⟩
  | member _ _ _ _ ihvalue ihmore => exact ⟨⟨ihvalue.1, ihmore.1⟩, Nat.max_le.mpr ⟨ihvalue.2, ihmore.2⟩⟩

/-- A value that a text denotes is ordered, and nests no more than the text may. -/
theorem Denotes.settled {depth : Nat} {text : List UInt8} {value : Value} (h : Denotes depth text value) :
    value.Ordered ∧ value.nesting ≤ depth := by
  obtain ⟨start, after, -, hwrites, -⟩ := h
  exact hwrites.settled

end RecordGate.Json
