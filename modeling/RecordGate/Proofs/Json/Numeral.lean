import RecordGate.Proofs.Except
import RecordGate.Proofs.Json.Grammar

/-! # Scanning numerals

The scanner takes numerals and nothing else (`numeral_of_readNumber`), and it takes all of a numeral that
nothing goes on with (`Numeral.readNumber`), whether its value is asked for or it is skipped. -/

namespace RecordGate.Json

/-! ### What follows -/

/-- The text does not start with a digit. -/
def NoDigit (text : List UInt8) : Prop :=
  ∀ b ∈ text.head?, isDigit b = false

/-- The text does not start with a digit or a point. -/
def NoFraction (text : List UInt8) : Prop :=
  ∀ b ∈ text.head?, isDigit b = false ∧ b ≠ Mark.point

/-- Nothing at the start of the text goes on with a numeral before it. -/
def Ends (text : List UInt8) : Prop :=
  ∀ b ∈ text.head?, isDigit b = false ∧ b ≠ Mark.point ∧ b ≠ 0x65 ∧ b ≠ 0x45

theorem ends_nil : Ends [] := by
  intro b hb
  cases hb

theorem ends_cons {b : UInt8} {rest : List UInt8}
    (h : isDigit b = false ∧ b ≠ Mark.point ∧ b ≠ 0x65 ∧ b ≠ 0x45) : Ends (b :: rest) := by
  intro c hc
  cases hc
  exact h

theorem isDigit_of_isBlank {b : UInt8} (h : isBlank b = true) :
    isDigit b = false ∧ b ≠ Mark.point ∧ b ≠ 0x65 ∧ b ≠ 0x45 := by
  simp only [isBlank, Bool.or_eq_true, beq_iff_eq] at h
  rcases h with ((rfl | rfl) | rfl) | rfl <;> decide

/-- A numeral ends where blanks follow, or what stands behind them. -/
theorem Ends.blanks {text rest : List UInt8} (hrest : Ends rest) (h : Blanks text rest) : Ends text := by
  cases h with
  | none => exact hrest
  | more hb _ => exact ends_cons (isDigit_of_isBlank hb)

theorem Exponent.noFraction {text rest : List UInt8} {exponent : Option (Bool × List Nat)}
    (h : Exponent text exponent rest) (hrest : Ends rest) : NoFraction text := by
  intro b hb
  cases h with
  | none => exact ⟨(hrest b hb).1, (hrest b hb).2.1⟩
  | some he =>
    cases hb
    rcases he with rfl | rfl <;> decide

theorem Fraction.noDigit {text rest : List UInt8} {digits : List Nat} (h : Fraction text digits rest)
    (hrest : NoFraction rest) : NoDigit text := by
  intro b hb
  cases h with
  | none => exact (hrest b hb).1
  | some _ =>
    cases hb
    rfl

/-! ### Digits -/

theorem leadingDigits_cons {b : UInt8} (h : isDigit b = true) (text : List UInt8) :
    leadingDigits (b :: text) = digitValue b :: leadingDigits text := by
  unfold leadingDigits
  rw [List.takeWhile_cons_of_pos h, List.map_cons]

theorem afterDigits_cons {b : UInt8} (h : isDigit b = true) (text : List UInt8) :
    afterDigits (b :: text) = afterDigits text :=
  List.dropWhile_cons_of_pos h

theorem NoDigit.leadingDigits {text : List UInt8} (h : NoDigit text) : leadingDigits text = [] := by
  cases text with
  | nil => rfl
  | cons b text =>
    unfold Json.leadingDigits
    rw [List.takeWhile_cons_of_neg (ne_true_of_eq_false (h b rfl))]
    rfl

theorem NoDigit.afterDigits {text : List UInt8} (h : NoDigit text) : afterDigits text = text := by
  cases text with
  | nil => rfl
  | cons b text => exact List.dropWhile_cons_of_neg (ne_true_of_eq_false (h b rfl))

theorem Digits.leading {text rest : List UInt8} {digits : List Nat} (h : Digits text digits rest)
    (hrest : NoDigit rest) : leadingDigits text = digits ∧ afterDigits text = rest := by
  induction h with
  | last hb =>
    rw [leadingDigits_cons hb, afterDigits_cons hb, hrest.leadingDigits]
    exact ⟨rfl, hrest.afterDigits⟩
  | more hb _ ih =>
    obtain ⟨hleading, hafter⟩ := ih hrest
    rw [leadingDigits_cons hb, afterDigits_cons hb, hleading]
    exact ⟨rfl, hafter⟩

theorem Digits.head {text rest : List UInt8} {digits : List Nat} (h : Digits text digits rest) :
    ∃ b more, text = b :: more ∧ isDigit b = true ∧ digits ≠ [] := by
  cases h with
  | last hb => exact ⟨_, _, rfl, hb, List.cons_ne_nil _ _⟩
  | more hb _ => exact ⟨_, _, rfl, hb, List.cons_ne_nil _ _⟩

theorem digits_leading {b : UInt8} (hb : isDigit b = true) (text : List UInt8) :
    Digits (b :: text) (leadingDigits (b :: text)) (afterDigits text) := by
  induction text generalizing b with
  | nil =>
    rw [leadingDigits_cons hb]
    exact .last hb
  | cons c text ih =>
    rw [leadingDigits_cons hb]
    by_cases hc : isDigit c = true
    · rw [afterDigits_cons hc]
      exact .more hb (ih hc)
    · have hstop : NoDigit (c :: text) := by
        intro d hd
        cases hd
        exact eq_false_of_ne_true hc
      rw [hstop.leadingDigits, hstop.afterDigits]
      exact .last hb

/-! ### Parts of a numeral -/

theorem Whole.scan {text rest : List UInt8} {digits : List Nat} (h : Whole text digits rest)
    (hrest : NoDigit rest) (cutOff : Cause) : Literal.scanWhole cutOff text = .ok (digits, rest) := by
  cases h with
  | zero =>
    have hnext : ¬(rest.head?.map isDigit).getD false = true := by
      cases rest with
      | nil => exact Bool.false_ne_true
      | cons b rest => exact ne_true_of_eq_false (hrest b rfl)
    exact if_neg hnext
  | digits hb hdigits =>
    obtain ⟨c, more, heq, hc, -⟩ := hdigits.head
    obtain ⟨hleading, hafter⟩ := hdigits.leading hrest
    cases heq
    rw [afterDigits_cons hc] at hafter
    refine ((if_neg hb).trans (if_pos hc)).trans ?_
    rw [hleading, hafter]

theorem whole_of_scan {cutOff : Cause} {text rest : List UInt8} {digits : List Nat}
    (h : Literal.scanWhole cutOff text = .ok (digits, rest)) : Whole text digits rest := by
  unfold Literal.scanWhole at h
  split at h
  · cases h
  · split at h
    · next hzero =>
      split at h
      · cases h
      · cases h
        rw [hzero]
        exact .zero
    · next hzero =>
      split at h
      · next hdigit =>
        cases h
        exact .digits hzero (digits_leading hdigit _)
      · cases h

theorem Fraction.scan {text rest : List UInt8} {digits : List Nat} (h : Fraction text digits rest)
    (hrest : NoFraction rest) (cutOff : Cause) : Literal.scanFraction cutOff text = .ok (digits, rest) := by
  cases h with
  | none =>
    cases text with
    | nil => rfl
    | cons b text => exact if_pos (hrest b rfl).2
  | some hdigits =>
    obtain ⟨b, more, rfl, hb, hsome⟩ := hdigits.head
    obtain ⟨hleading, hafter⟩ := hdigits.leading fun c hc => (hrest c hc).1
    unfold Literal.scanFraction
    simp only [ne_eq, not_true_eq_false, if_false, hleading]
    rw [hafter]

theorem digits_of_leading {text : List UInt8} (h : leadingDigits text ≠ []) :
    Digits text (leadingDigits text) (afterDigits text) := by
  cases text with
  | nil => exact absurd rfl h
  | cons b text =>
    by_cases hb : isDigit b = true
    · rw [afterDigits_cons hb]
      exact digits_leading hb text
    · refine absurd (NoDigit.leadingDigits fun c hc => ?_) h
      cases hc
      exact eq_false_of_ne_true hb

theorem fraction_of_scan {cutOff : Cause} {text rest : List UInt8} {digits : List Nat}
    (h : Literal.scanFraction cutOff text = .ok (digits, rest)) : Fraction text digits rest := by
  unfold Literal.scanFraction at h
  split at h
  · cases h
    exact .none
  · split at h
    · cases h
      exact .none
    · next hpoint =>
      rw [Decidable.not_not.mp hpoint]
      split at h
      · cases h
      · cases h
      · next hleading =>
        cases h
        exact .some (digits_of_leading hleading)

theorem Sign.scan {text rest : List UInt8} {negative : Bool} (h : Sign text negative rest)
    (hrest : ∀ b ∈ rest.head?, isDigit b = true) : Literal.scanSign text = (negative, rest) := by
  cases h with
  | none =>
    cases text with
    | nil => rfl
    | cons b text =>
      have hdigit := hrest b rfl
      have hminus : b ≠ Mark.minus := by
        rintro rfl
        exact absurd hdigit (by decide)
      have hplus : b ≠ Mark.plus := by
        rintro rfl
        exact absurd hdigit (by decide)
      exact (if_neg hminus).trans (if_neg hplus)
  | plus => rfl
  | minus => rfl

theorem sign_of_scan (text : List UInt8) :
    Sign text (Literal.scanSign text).1 (Literal.scanSign text).2 := by
  cases text with
  | nil => exact .none
  | cons b text =>
    simp only [Literal.scanSign]
    by_cases hminus : b = Mark.minus
    · rw [if_pos hminus, hminus]
      exact .minus
    · rw [if_neg hminus]
      by_cases hplus : b = Mark.plus
      · rw [if_pos hplus, hplus]
        exact .plus
      · rw [if_neg hplus]
        exact .none

theorem Exponent.scan {text rest : List UInt8} {exponent : Option (Bool × List Nat)}
    (h : Exponent text exponent rest) (hrest : Ends rest) (cutOff : Cause) :
    Literal.scanExponent cutOff text = .ok (exponent, rest) := by
  cases h with
  | none =>
    cases text with
    | nil => rfl
    | cons b text => exact if_pos (hrest b rfl).2.2
  | @some e _ _ _ _ _ he hsign hdigits =>
    obtain ⟨b, more, rfl, hb, -⟩ := hdigits.head
    obtain ⟨hleading, hafter⟩ := hdigits.leading fun c hc => (hrest c hc).1
    rw [afterDigits_cons hb] at hafter
    have hletter : ¬(e ≠ 0x65 ∧ e ≠ 0x45) := fun hother => he.elim hother.1 hother.2
    have hscan := hsign.scan fun c hc => by
      cases hc
      exact hb
    unfold Literal.scanExponent
    simp only [if_neg hletter, hscan, if_pos hb]
    rw [hleading, hafter]

theorem exponent_of_scan {cutOff : Cause} {text rest : List UInt8} {exponent : Option (Bool × List Nat)}
    (h : Literal.scanExponent cutOff text = .ok (exponent, rest)) : Exponent text exponent rest := by
  unfold Literal.scanExponent at h
  split at h
  · cases h
    exact .none
  · next e more =>
    split at h
    · cases h
      exact .none
    · next hletter =>
      have he : e = 0x65 ∨ e = 0x45 := by
        by_cases hsmall : e = 0x65
        · exact .inl hsmall
        · exact .inr (Decidable.not_not.mp fun hlarge => hletter ⟨hsmall, hlarge⟩)
      have hsign := sign_of_scan more
      split at h
      · cases h
      · next negative d start hscan =>
        rw [hscan] at hsign
        split at h
        · next hd =>
          cases h
          exact .some he hsign (digits_leading hd start)
        · cases h

/-! ### Numerals -/

theorem Magnitude.scan {negative : Bool} {text rest : List UInt8} {literal : Literal}
    (h : Magnitude negative text literal rest) (hrest : Ends rest) (cutOff : Cause) :
    Literal.scan cutOff negative text = .ok (literal, rest) := by
  cases h with
  | mk hwhole hfraction hexponent =>
    have hafterFraction := hexponent.noFraction hrest
    have hafterWhole := hfraction.noDigit hafterFraction
    unfold Literal.scan
    exact bind_eq_ok.mpr ⟨_, hwhole.scan hafterWhole cutOff, bind_eq_ok.mpr ⟨_,
      hfraction.scan hafterFraction cutOff, bind_eq_ok.mpr ⟨_, hexponent.scan hrest cutOff, rfl⟩⟩⟩

theorem magnitude_of_scan {cutOff : Cause} {negative : Bool} {text rest : List UInt8} {literal : Literal}
    (h : Literal.scan cutOff negative text = .ok (literal, rest)) : Magnitude negative text literal rest := by
  obtain ⟨⟨whole, afterWhole⟩, hwhole, h⟩ := bind_eq_ok.mp h
  obtain ⟨⟨fraction, afterFraction⟩, hfraction, h⟩ := bind_eq_ok.mp h
  obtain ⟨⟨exponent, afterExponent⟩, hexponent, h⟩ := bind_eq_ok.mp h
  cases h
  exact .mk (whole_of_scan hwhole) (fraction_of_scan hfraction) (exponent_of_scan hexponent)

/-- A numeral starts with a digit, behind its sign. -/
theorem Magnitude.head {negative : Bool} {text rest : List UInt8} {literal : Literal}
    (h : Magnitude negative text literal rest) : ∃ b more, text = b :: more ∧ isDigit b = true := by
  cases h with
  | mk hwhole _ _ =>
    cases hwhole with
    | zero => exact ⟨_, _, rfl, rfl⟩
    | digits _ hdigits =>
      obtain ⟨b, more, heq, hb, -⟩ := hdigits.head
      exact ⟨b, more, heq, hb⟩

theorem Numeral.head {text rest : List UInt8} {literal : Literal} (h : Numeral text literal rest) :
    ∃ b more, text = b :: more ∧ (b = Mark.minus ∨ isDigit b = true) := by
  cases h with
  | positive h =>
    obtain ⟨b, more, heq, hb⟩ := h.head
    exact ⟨b, more, heq, .inr hb⟩
  | negative _ => exact ⟨_, _, rfl, .inl rfl⟩

theorem ne_minus_of_isDigit {b : UInt8} (h : isDigit b = true) : b ≠ Mark.minus := by
  rintro rfl
  exact absurd h (by decide)

/-- A numeral is read as its value, if it has one. -/
theorem Numeral.readNumber_eq {text rest : List UInt8} {literal : Literal} (h : Numeral text literal rest)
    (hrest : Ends rest) : Json.readNumber text = (literal.value rest).map fun number => (number, rest) := by
  have hread : ∀ {negative : Bool} {text : List UInt8}, Magnitude negative text literal rest →
      readMagnitude negative text = (literal.value rest).map fun number => (number, rest) := by
    intro negative text h
    unfold readMagnitude
    rw [h.scan hrest, ok_bind]
    dsimp only
    cases literal.value rest <;> rfl
  cases h with
  | positive h =>
    obtain ⟨b, more, rfl, hb⟩ := h.head
    exact (if_neg (ne_minus_of_isDigit hb)).trans (hread h)
  | negative h =>
    unfold Json.readNumber
    simp only [if_true]
    exact hread h

theorem Numeral.readNumber {text rest : List UInt8} {literal : Literal} {number : Number}
    (h : Numeral text literal rest) (hrest : Ends rest) (hvalue : literal.value rest = .ok number) :
    readNumber text = .ok (number, rest) := by
  rw [h.readNumber_eq hrest, hvalue]
  rfl

theorem numeral_of_readNumber {text rest : List UInt8} {number : Number}
    (h : readNumber text = .ok (number, rest)) :
    ∃ literal, Numeral text literal rest ∧ literal.value rest = .ok number := by
  have hmagnitude : ∀ {negative : Bool} {text : List UInt8}, readMagnitude negative text = .ok (number, rest) →
      ∃ literal, Magnitude negative text literal rest ∧ literal.value rest = .ok number := by
    intro negative text h
    obtain ⟨⟨literal, after⟩, hscan, h⟩ := bind_eq_ok.mp h
    obtain ⟨value, hvalue, h⟩ := bind_eq_ok.mp h
    cases h
    exact ⟨literal, magnitude_of_scan hscan, hvalue⟩
  unfold Json.readNumber at h
  split at h
  · cases h
  · split at h
    · next hminus =>
      obtain ⟨literal, hliteral, hvalue⟩ := hmagnitude h
      rw [hminus]
      exact ⟨literal, .negative hliteral, hvalue⟩
    · obtain ⟨literal, hliteral, hvalue⟩ := hmagnitude h
      exact ⟨literal, .positive hliteral, hvalue⟩

/-- A numeral is skipped, whatever its value. -/
theorem Numeral.skipNumber {text rest : List UInt8} {literal : Literal} (h : Numeral text literal rest)
    (hrest : Ends rest) : skipNumber text = .ok rest := by
  cases h with
  | positive h =>
    obtain ⟨b, more, rfl, hb⟩ := h.head
    have hminus := ne_minus_of_isDigit hb
    unfold Json.skipNumber
    simp only [hminus, decide_false, if_false]
    exact map_eq_ok.mpr ⟨_, h.scan hrest _, rfl⟩
  | negative h =>
    unfold Json.skipNumber
    simp only [decide_true, if_true]
    exact map_eq_ok.mpr ⟨_, h.scan hrest _, rfl⟩

end RecordGate.Json
