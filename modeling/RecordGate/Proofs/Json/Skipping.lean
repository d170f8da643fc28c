import RecordGate.Proofs.Json.Reading

/-! # Skipping what a text writes

A value that a text writes is skipped up to its end (`skipValue_stepsFor`), however deep it nests, whatever its
strings spell and whatever its numbers are. The skipper looks at a text only behind its blanks, so that it
may start in front of them or behind them. -/

namespace RecordGate.Json

theorem skipScalar_numeral {b : UInt8} (hb : b = Mark.minus ∨ isDigit b = true) (text : List UInt8) :
    skipScalar (b :: text) = skipNumber (b :: text) := by
  unfold skipScalar
  simp only [if_neg (ne_of_numeral hb 0x6E (by decide) rfl), if_neg (ne_of_numeral hb 0x74 (by decide) rfl),
    if_neg (ne_of_numeral hb 0x66 (by decide) rfl), if_neg (ne_of_numeral hb Mark.quote (by decide) rfl),
    if_pos hb]

/-- A scalar is skipped up to its end. -/
theorem Scalar.skipScalar {text rest : List UInt8} {value : Value} (h : Scalar text value rest)
    (hrest : Ends rest) : skipScalar text = .ok rest := by
  cases h with
  | null => exact expectWord_append nullTail rest
  | true => exact expectWord_append trueTail rest
  | false => exact expectWord_append falseTail rest
  | string hspells => exact hspells.skipString
  | number hnumeral _ =>
    obtain ⟨b, more, rfl, hb⟩ := hnumeral.head
    rw [skipScalar_numeral hb]
    exact hnumeral.skipNumber hrest

/-! ### Lists -/

theorem nextSkipped_comma {text rest : List UInt8} (h : Blanks text (Mark.comma :: rest)) (close : UInt8)
    (cutOff expected : Cause) : nextSkipped close cutOff expected text = .ok (.entry rest) := by
  unfold nextSkipped
  rw [h.found (by decide)]
  simp only [if_true]

theorem nextSkipped_close {text rest : List UInt8} {close : UInt8} (h : Blanks text (close :: rest))
    (hblank : isBlank close = false) (hcomma : close ≠ Mark.comma) (cutOff expected : Cause) :
    nextSkipped close cutOff expected text = .ok (.close rest) := by
  unfold nextSkipped
  rw [h.found hblank]
  simp only [if_neg hcomma, if_true]

theorem Keyed.skipKey {before text start : List UInt8} {key : String} (h : Keyed text key start)
    (hbefore : skipBlanks before = skipBlanks text) :
    ∃ afterColon, skipKey before = .ok afterColon ∧ Blanks afterColon start := by
  cases h with
  | mk hquote hspells hcolon hstart =>
    refine ⟨_, ?_, hstart⟩
    unfold Json.skipKey
    rw [hbefore, hquote.found (by decide)]
    simp only [if_true]
    exact bind_eq_ok.mpr ⟨_, hspells.skipString, expectColon_of_blanks hcolon⟩

/-- The first item starts behind blanks, and not with the end of the array. -/
theorem Writes.firstItem {depth : Nat} {text rest : List UInt8} {items : List Value}
    (h : Writes depth text (.items items) rest) :
    ∃ b more, skipBlanks text = b :: more ∧ b ≠ Mark.closeArray := by
  cases h with
  | lastItem hstart hvalue _ | item hstart hvalue _ _ =>
    obtain ⟨b, more, rfl, hb⟩ := hvalue.head
    exact ⟨b, more, hstart.found hb.blank, hb.closeArray⟩

/-- The first member starts behind blanks with the quote of its key. -/
theorem Writes.firstKey {depth : Nat} {text rest : List UInt8} {written : List (String × Value)}
    (h : Writes depth text (.members written) rest) : ∃ more, skipBlanks text = Mark.quote :: more := by
  cases h with
  | lastMember hkeyed _ _ | member hkeyed _ _ _ =>
    cases hkeyed with
    | mk hquote _ _ _ => exact ⟨_, hquote.found (by decide)⟩

/-! ### Values -/

/-- How each part is skipped, from any place that differs from where it starts by blanks only. -/
def Part.Skipped (text : List UInt8) (part : Part) (rest : List UInt8) : Prop :=
  ∀ (steps : Nat) {before : List UInt8}, 2 * text.length ≤ steps + 2 * rest.length →
    skipBlanks before = skipBlanks text →
    match part with
    | .value _ => Ends rest → skipValue steps before = .ok rest
    | .items _ => skipItems steps before = .ok rest
    | .members _ => skipMembers steps before = .ok rest

theorem skipBlanks_skipBlanks (text : List UInt8) : skipBlanks (skipBlanks text) = skipBlanks text :=
  (blanks_skipBlanks text).skipBlanks.symm

/-- What a text writes is skipped, in at most twice as many steps as it has bytes. -/
theorem Writes.skipped {depth : Nat} {text rest : List UInt8} {part : Part} (h : Writes depth text part rest) :
    part.Skipped text rest := by
  induction h with
  | scalar hscalar =>
    intro steps before hsteps hbefore hrest
    have hlength := hscalar.length_lt
    obtain ⟨steps, rfl⟩ := Nat.exists_eq_add_of_le' (show 1 ≤ steps by omega)
    obtain ⟨b, more, rfl, hb⟩ := hscalar.head
    unfold skipValue
    rw [hbefore, skipBlanks_cons hb.blank]
    simp only [if_neg hb.openArray, if_neg hb.openObject]
    exact hscalar.skipScalar hrest
  | emptyArray hclose =>
    intro steps before hsteps hbefore hrest
    have hlength := hclose.length_le
    simp only [List.length_cons] at hsteps hlength
    obtain ⟨steps, rfl⟩ := Nat.exists_eq_add_of_le' (show 1 ≤ steps by omega)
    unfold skipValue
    rw [hbefore, skipBlanks_cons (by decide)]
    simp only [if_true, hclose.found (show isBlank Mark.closeArray = false by decide)]
  | array hitems ih =>
    intro steps before hsteps hbefore hrest
    have hlength := hitems.length_lt
    simp only [List.length_cons] at hsteps
    obtain ⟨steps, rfl⟩ := Nat.exists_eq_add_of_le' (show 1 ≤ steps by omega)
    obtain ⟨b, more, hfirst, hclose⟩ := hitems.firstItem
    have hskip := ih steps (by omega) (skipBlanks_skipBlanks _)
    unfold skipValue
    rw [hbefore, skipBlanks_cons (by decide)]
    simp only [if_true, hfirst, if_neg hclose]
    rwa [hfirst] at hskip
  | lastItem hstart hvalue hclose ih =>
    intro steps before hsteps hbefore
    have hbegin := hstart.length_le
    have hlength := hvalue.length_lt
    have hend := hclose.length_le
    simp only [List.length_cons] at hend
    obtain ⟨steps, rfl⟩ := Nat.exists_eq_add_of_le' (show 1 ≤ steps by omega)
    have hends := ends_of_mark hclose (by decide)
    have hskip := ih steps (by omega) (hbefore.trans hstart.skipBlanks) hends
    unfold skipItems
    exact bind_eq_ok.mpr ⟨_, hskip, bind_eq_ok.mpr ⟨_,
      nextSkipped_close hclose (by decide) (by decide) _ _, rfl⟩⟩
  | item hstart hvalue hcomma hmore ihvalue ihmore =>
    intro steps before hsteps hbefore
    have hbegin := hstart.length_le
    have hlength := hvalue.length_lt
    have hbetween := hcomma.length_le
    have hend := hmore.length_lt
    simp only [List.length_cons] at hbetween
    obtain ⟨steps, rfl⟩ := Nat.exists_eq_add_of_le' (show 1 ≤ steps by omega)
    have hends := ends_of_mark hcomma (by decide)
    have hskip := ihvalue steps (by omega) (hbefore.trans hstart.skipBlanks) hends
    unfold skipItems
    exact bind_eq_ok.mpr ⟨_, hskip, bind_eq_ok.mpr ⟨_, nextSkipped_comma hcomma _ _ _, ihmore steps (by omega) rfl⟩⟩
  | emptyObject hclose =>
    intro steps before hsteps hbefore hrest
    have hlength := hclose.length_le
    simp only [List.length_cons] at hsteps hlength
    obtain ⟨steps, rfl⟩ := Nat.exists_eq_add_of_le' (show 1 ≤ steps by omega)
    unfold skipValue
    rw [hbefore, skipBlanks_cons (by decide)]
    simp only [if_neg (show Mark.openObject ≠ Mark.openArray by decide), if_true,
      hclose.found (show isBlank Mark.closeObject = false by decide)]
  | object hmembers _ ih =>
    intro steps before hsteps hbefore hrest
    have hlength := hmembers.length_lt
    simp only [List.length_cons] at hsteps
    obtain ⟨steps, rfl⟩ := Nat.exists_eq_add_of_le' (show 1 ≤ steps by omega)
    obtain ⟨more, hfirst⟩ := hmembers.firstKey
    have hskip := ih steps (by omega) (skipBlanks_skipBlanks _)
    unfold skipValue
    rw [hbefore, skipBlanks_cons (by decide)]
    simp only [if_neg (show Mark.openObject ≠ Mark.openArray by decide), if_true, hfirst,
      if_neg (show Mark.quote ≠ Mark.closeObject by decide)]
    rwa [hfirst] at hskip
  | lastMember hkeyed hvalue hclose ih =>
    intro steps before hsteps hbefore
    have hbegin := hkeyed.length_lt
    have hlength := hvalue.length_lt
    have hend := hclose.length_le
    simp only [List.length_cons] at hend
    obtain ⟨steps, rfl⟩ := Nat.exists_eq_add_of_le' (show 1 ≤ steps by omega)
    obtain ⟨afterColon, hkey, hstart⟩ := hkeyed.skipKey hbefore
    have hends := ends_of_mark hclose (by decide)
    have hskip := ih steps (by omega) hstart.skipBlanks hends
    unfold skipMembers
    exact bind_eq_ok.mpr ⟨_, hkey, bind_eq_ok.mpr ⟨_, hskip, bind_eq_ok.mpr ⟨_,
      nextSkipped_close hclose (by decide) (by decide) _ _, rfl⟩⟩⟩
  | member hkeyed hvalue hcomma hmore ihvalue ihmore =>
    intro steps before hsteps hbefore
    have hbegin := hkeyed.length_lt
    have hlength := hvalue.length_lt
    have hbetween := hcomma.length_le
    have hend := hmore.length_lt
    simp only [List.length_cons] at hbetween
    obtain ⟨steps, rfl⟩ := Nat.exists_eq_add_of_le' (show 1 ≤ steps by omega)
    obtain ⟨afterColon, hkey, hstart⟩ := hkeyed.skipKey hbefore
    have hends := ends_of_mark hcomma (by decide)
    have hskip := ihvalue steps (by omega) hstart.skipBlanks hends
    unfold skipMembers
    exact bind_eq_ok.mpr ⟨_, hkey, bind_eq_ok.mpr ⟨_, hskip, bind_eq_ok.mpr ⟨_,
      nextSkipped_comma hcomma _ _ _, ihmore steps (by omega) rfl⟩⟩⟩

/-- A value is skipped up to its end. -/
theorem skipValue_stepsFor {depth : Nat} {text start rest : List UInt8} {value : Value}
    (hstart : Blanks text start) (h : Writes depth start (.value value) rest) (hrest : Ends rest) :
    skipValue (stepsFor text) text = .ok rest := by
  have hlength := hstart.length_le
  refine h.skipped _ ?_ hstart.skipBlanks hrest
  unfold stepsFor
  omega

end RecordGate.Json
