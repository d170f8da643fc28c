import RecordGate.Proofs.Json.Numeral
import RecordGate.Proofs.Text.Encoding

/-! # Integers in decimal

An integer is written in decimal, behind a minus sign if it is negative, and what is written is a numeral of
that integer (`numeral_toString`). -/

namespace RecordGate.Json

/-! ### Digits -/

/-- The decimal digits of a number, as bytes. -/
def decimal (n : Nat) : List UInt8 :=
  (Nat.toDigits 10 n).map fun c => UInt8.ofNat c.toNat

theorem digit_range {c : Char} (h : c.isDigit) : 0x30 ≤ c.toNat ∧ c.toNat ≤ 0x39 := by
  simp only [Char.isDigit, Bool.and_eq_true, decide_eq_true_eq] at h
  exact ⟨UInt32.le_iff_toNat_le.mp h.1, UInt32.le_iff_toNat_le.mp h.2⟩

theorem toNat_digit {c : Char} (h : c.isDigit) : (UInt8.ofNat c.toNat).toNat = c.toNat := by
  have hrange := digit_range h
  rw [UInt8.toNat_ofNat']
  omega

theorem isDigit_digit {c : Char} (h : c.isDigit) : isDigit (UInt8.ofNat c.toNat) = true := by
  have hrange := digit_range h
  have hvalue := toNat_digit h
  simp only [isDigit, Bool.and_eq_true, decide_eq_true_eq, UInt8.le_iff_toNat_le]
  rw [hvalue]
  exact hrange

theorem isDigit_toDigits {n : Nat} {c : Char} (h : c ∈ Nat.toDigits 10 n) : c.isDigit :=
  Nat.isDigit_of_mem_toDigits (by decide) (by decide) h

theorem isDigit_decimal {n : Nat} {b : UInt8} (h : b ∈ decimal n) : isDigit b = true := by
  obtain ⟨c, hc, rfl⟩ := List.mem_map.mp h
  exact isDigit_digit (isDigit_toDigits hc)

theorem decimal_ne_nil (n : Nat) : decimal n ≠ [] := by
  unfold decimal
  rw [ne_eq, List.map_eq_nil_iff]
  exact Nat.toDigits_ne_nil

theorem bytes_repr (n : Nat) : Text.bytes n.repr = decimal n := by
  rw [Nat.repr_eq_ofList_toDigits]
  refine Text.bytes_ofList_ascii fun c hc => ?_
  have hrange := digit_range (isDigit_toDigits hc)
  omega

/-- Only zero is written with a zero in front. -/
theorem head_decimal {n : Nat} (hn : 0 < n) : ∃ b rest, decimal n = b :: rest ∧ b ≠ 0x30 := by
  induction n using Nat.base_induction 10 (by decide) with
  | single n hlt =>
    refine ⟨UInt8.ofNat n.digitChar.toNat, [], ?_, ?_⟩
    · rw [decimal, Nat.toDigits_of_lt_base hlt]
      rfl
    · rw [Nat.toNat_digitChar_of_lt_ten hlt]
      intro hzero
      have hvalue := congrArg UInt8.toNat hzero
      rw [UInt8.toNat_ofNat'] at hvalue
      have hthirty : (0x30 : UInt8).toNat = 48 := rfl
      omega
  | digit n d hd hpos ih =>
    obtain ⟨b, rest, hdecimal, hb⟩ := ih hpos
    refine ⟨b, rest ++ decimal d, ?_, hb⟩
    unfold decimal at hdecimal ⊢
    rw [← Nat.toDigits_append_toDigits (by decide) hpos hd, List.map_append, hdecimal]
    rfl

/-! ### The number that digits stand for -/

theorem digitValue_digit {c : Char} (h : c.isDigit) : digitValue (UInt8.ofNat c.toNat) = c.toNat - '0'.toNat := by
  rw [digitValue, toNat_digit h]
  rfl

theorem foldl_decimal (n : Nat) :
    ((decimal n).map digitValue).foldl (fun value digit => value * 10 + digit) 0 = n := by
  have hdigits : ∀ (cs : List Char) (value : Nat), (∀ c ∈ cs, c.isDigit) →
      ((cs.map fun c => UInt8.ofNat c.toNat).map digitValue).foldl (fun value digit => value * 10 + digit) value =
        Nat.ofDigitChars 10 cs value := by
    intro cs
    induction cs with
    | nil => exact fun _ _ => rfl
    | cons c cs ih =>
      intro value hcs
      rw [List.map_cons, List.map_cons, List.foldl_cons, ih _ fun c hc => hcs c (List.mem_cons_of_mem _ hc),
        digitValue_digit (hcs c List.mem_cons_self), Nat.ofDigitChars_cons, Nat.mul_comm]
  rw [decimal, hdigits _ _ fun c hc => isDigit_toDigits hc, Nat.ofDigitChars_ten_toDigits]

theorem le_foldl_digits (digits : List Nat) (value : Nat) :
    value ≤ digits.foldl (fun value digit => value * 10 + digit) value := by
  induction digits generalizing value with
  | nil => exact Nat.le_refl _
  | cons digit digits ih =>
    have hnext := ih (value * 10 + digit)
    rw [List.foldl_cons]
    omega

theorem absorb_of_lt {limit value : Nat} {digits : List Nat}
    (h : digits.foldl (fun value digit => value * 10 + digit) value < limit) :
    Literal.absorb limit value digits = (digits.foldl (fun value digit => value * 10 + digit) value, []) := by
  induction digits generalizing value with
  | nil => rfl
  | cons digit digits ih =>
    rw [List.foldl_cons] at h ⊢
    have hnext := le_foldl_digits digits (value * 10 + digit)
    unfold Literal.absorb
    rw [if_pos (by omega), ih h]

/-! ### Numerals -/

theorem digits_append {digits : List UInt8} (hdigits : ∀ b ∈ digits, isDigit b = true) (hsome : digits ≠ [])
    (rest : List UInt8) : Digits (digits ++ rest) (digits.map digitValue) rest := by
  induction digits with
  | nil => exact absurd rfl hsome
  | cons b digits ih =>
    have hb := hdigits b List.mem_cons_self
    cases digits with
    | nil => exact .last hb
    | cons c digits =>
      exact .more hb (ih (fun d hd => hdigits d (List.mem_cons_of_mem _ hd)) (List.cons_ne_nil _ _))

theorem whole_decimal (n : Nat) (rest : List UInt8) :
    Whole (decimal n ++ rest) ((decimal n).map digitValue) rest := by
  rcases Nat.eq_zero_or_pos n with rfl | hn
  · -- Zero is the one number that starts with a zero, and it is only that.
    exact .zero
  · obtain ⟨b, tail, hdecimal, hb⟩ := head_decimal hn
    have hdigits := digits_append (fun d hd => isDigit_decimal hd) (decimal_ne_nil n) rest
    rw [hdecimal] at hdigits ⊢
    exact .digits hb hdigits

theorem magnitude_decimal (negative : Bool) (n : Nat) (rest : List UInt8) :
    Magnitude negative (decimal n ++ rest) ⟨negative, (decimal n).map digitValue, [], none⟩ rest :=
  .mk (whole_decimal n rest) .none .none

/-! ### Integers -/

theorem integer?_decimal {n : Nat} (h : n < 0x10000000000000000) (negative : Bool) :
    Literal.integer? ⟨negative, (decimal n).map digitValue, [], none⟩ =
      if !negative then some (n : Int) else if 0 < n ∧ n ≤ 0x8000000000000000 then some (-n : Int) else none := by
  have hlimit : ((decimal n).map digitValue).foldl (fun value digit => value * 10 + digit) 0 < UInt64.size := by
    rw [foldl_decimal]
    exact h
  have habsorb := absorb_of_lt hlimit
  rw [foldl_decimal] at habsorb
  unfold Literal.integer?
  rw [habsorb]

theorem value_of_integer? {literal : Literal} {i : Int} (h : literal.integer? = some i) (rest : List UInt8) :
    literal.value rest = .ok (.int i) := by
  unfold Literal.value
  rw [h]

/-- An integer is written as a numeral of it. -/
theorem numeral_toString {i : Int} (h : IntegerInRange i) (rest : List UInt8) :
    ∃ literal, Numeral (Text.bytes (toString i) ++ rest) literal rest ∧ literal.value rest = .ok (.int i) := by
  have hlow := h.1
  have hhigh := h.2
  rw [Int.toString_eq_repr, Int.repr_eq_if]
  by_cases hsign : 0 ≤ i
  · obtain ⟨n, rfl⟩ := Int.eq_ofNat_of_zero_le hsign
    have hinteger := integer?_decimal (n := n) (by omega) false
    rw [if_pos hsign, Int.toNat_natCast, bytes_repr]
    exact ⟨_, .positive (magnitude_decimal false n rest), value_of_integer? hinteger rest⟩
  · obtain ⟨n, hn⟩ := Int.eq_ofNat_of_zero_le (show 0 ≤ -i by omega)
    have hinteger := integer?_decimal (n := n) (by omega) true
    rw [if_neg (by decide), if_pos (by omega), ← hn, Int.neg_neg] at hinteger
    rw [if_neg hsign, Text.bytes_append, bytes_repr, hn, Int.toNat_natCast]
    exact ⟨_, .negative (magnitude_decimal true n rest), value_of_integer? hinteger rest⟩

end RecordGate.Json
