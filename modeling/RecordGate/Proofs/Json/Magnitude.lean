import Mathlib.Algebra.Order.Field.Power
import Mathlib.Algebra.Order.Field.Rat
import Mathlib.Tactic.FieldSimp
import Mathlib.Tactic.GCongr
import Mathlib.Tactic.Linarith
import Mathlib.Tactic.Positivity
import Mathlib.Tactic.Ring
import RecordGate.Proofs.Double.Range
import RecordGate.Proofs.Json.Decimal

/-! # Magnitudes of numerals

A literal stands for a rational number (`absolute`). The digits that fit 64 bits and their power of ten approach
it (`approaches_significand`): where digits are left out the significand is full. From this a numeral from
`1.797693134862316 * 10 ^ 308` on has no value (`value_eq_error`), and whatever has a value has a finite one
(`finite_of_value`). -/

namespace RecordGate.Json.Literal
open Double

variable {literal : Literal}

/-! ### Digits -/

/-- The number that decimal digits stand for. -/
def digitsNumber (digits : List Nat) : Nat :=
  digits.foldl (fun value digit => value * 10 + digit) 0

theorem foldl_digits (value : Nat) (digits : List Nat) :
    digits.foldl (fun value digit => value * 10 + digit) value = value * 10 ^ digits.length + digitsNumber digits := by
  induction digits generalizing value with
  | nil => simp [digitsNumber]
  | cons digit digits ih =>
    simp only [digitsNumber, List.foldl_cons, List.length_cons, ih (value * 10 + digit), ih (0 * 10 + digit)]
    ring

theorem digitsNumber_append (digits more : List Nat) :
    digitsNumber (digits ++ more) = digitsNumber digits * 10 ^ more.length + digitsNumber more := by
  rw [digitsNumber, List.foldl_append, foldl_digits]
  rfl

theorem digitsNumber_cons (digit : Nat) (digits : List Nat) :
    digitsNumber (digit :: digits) = digit * 10 ^ digits.length + digitsNumber digits := by
  rw [digitsNumber, List.foldl_cons, foldl_digits, Nat.zero_mul, Nat.zero_add]

theorem digitsNumber_lt {digits : List Nat} (h : ∀ digit ∈ digits, digit ≤ 9) :
    digitsNumber digits < 10 ^ digits.length := by
  induction digits with
  | nil => decide
  | cons digit digits ih =>
    have hrest := ih fun other hother => h other (List.mem_cons_of_mem _ hother)
    have hfirst := h digit List.mem_cons_self
    rw [digitsNumber_cons, List.length_cons, Nat.pow_succ']
    nlinarith

/-- What is absorbed of digits, and why no more of them. -/
theorem absorb_spec {limit value n : Nat} {digits left : List Nat}
    (h : absorb limit value digits = (n, left)) :
    ∃ taken, digits = taken ++ left ∧ n = value * 10 ^ taken.length + digitsNumber taken ∧
      ∀ digit ∈ left.head?, limit ≤ n * 10 + digit := by
  induction digits generalizing value with
  | nil =>
    cases h
    exact ⟨[], by simp [digitsNumber]⟩
  | cons digit digits ih =>
    unfold absorb at h
    dsimp only at h
    split at h
    · obtain ⟨taken, rfl, rfl, hleft⟩ := ih h
      refine ⟨digit :: taken, rfl, ?_, hleft⟩
      rw [digitsNumber_cons, List.length_cons]
      ring
    · next hlimit =>
      cases h
      refine ⟨[], rfl, by simp [digitsNumber], fun other hother => ?_⟩
      cases hother
      omega

theorem absorb_lt {limit value : Nat} (h : value < limit) (digits : List Nat) :
    (absorb limit value digits).1 < limit := by
  induction digits generalizing value with
  | nil => exact h
  | cons digit digits ih =>
    unfold absorb
    dsimp only
    split
    · next hnext => exact ih hnext
    · exact h

/-! ### The number that a literal stands for -/

/-- The exponent that is written, zero if there is none. -/
def power (literal : Literal) : ℤ :=
  match literal.exponent with
  | none => 0
  | some (true, digits) => -digitsNumber digits
  | some (false, digits) => digitsNumber digits

/-- The number that a literal stands for, without its sign. -/
def absolute (literal : Literal) : ℚ :=
  digitsNumber (literal.whole ++ literal.fraction) * 10 ^ (literal.power - literal.fraction.length)

/-- The digits of the literal are decimal. -/
def IsDecimal (literal : Literal) : Prop :=
  ∀ digit ∈ literal.whole ++ literal.fraction, digit ≤ 9

theorem decimal_of_digits {text rest : List UInt8} {digits : List Nat} (h : Digits text digits rest) :
    ∀ digit ∈ digits, digit ≤ 9 := by
  have hvalue : ∀ b : UInt8, isDigit b = true → digitValue b ≤ 9 := by
    intro b hb
    simp only [isDigit, Bool.and_eq_true, decide_eq_true_eq, UInt8.le_iff_toNat_le] at hb
    exact Nat.sub_le_of_le_add hb.2
  induction h with
  | last hb => simpa using hvalue _ hb
  | more hb _ ih => simpa using ⟨hvalue _ hb, ih⟩

/-- The digits of a numeral are decimal. -/
theorem isDecimal_of_numeral {text rest : List UInt8} (h : Numeral text literal rest) : literal.IsDecimal := by
  have hmagnitude : ∀ {negative : Bool} {text : List UInt8}, Magnitude negative text literal rest →
      literal.IsDecimal := by
    intro negative text h
    obtain ⟨hwhole, hfraction, -⟩ := h
    intro digit hdigit
    rcases List.mem_append.mp hdigit with hdigit | hdigit
    · cases hwhole with
      | zero =>
        obtain rfl := List.mem_singleton.mp hdigit
        exact Nat.zero_le 9
      | digits _ hdigits => exact decimal_of_digits hdigits digit hdigit
    · cases hfraction with
      | none => cases hdigit
      | some hdigits => exact decimal_of_digits hdigits digit hdigit
  cases h with
  | positive h => exact hmagnitude h
  | negative h => exact hmagnitude h

/-- How a significand of at most 64 bits and its power of ten approach the digits of a literal: they are equal,
    or the significand has no room for another digit. -/
structure Approaches (literal : Literal) (n : Nat) (p : ℤ) : Prop where
  lt : n < UInt64.size
  le : (digitsNumber (literal.whole ++ literal.fraction) : ℚ) * 10 ^ (-literal.fraction.length : ℤ) ≤
    (n + 10) * 10 ^ p
  exact_or_full : (digitsNumber (literal.whole ++ literal.fraction) : ℚ) * 10 ^ (-literal.fraction.length : ℤ) =
    n * 10 ^ p ∨ UInt64.size ≤ n * 10 + 9

theorem head_le {left : List Nat} {limit n : Nat} (hleft : left ≠ []) (hdigits : ∀ digit ∈ left, digit ≤ 9)
    (h : ∀ digit ∈ left.head?, limit ≤ n * 10 + digit) : limit ≤ n * 10 + 9 := by
  obtain ⟨digit, rest, rfl⟩ := List.exists_cons_of_ne_nil hleft
  have hhead := h digit rfl
  have hdigit := hdigits digit List.mem_cons_self
  omega

/-- Digits that are left out behind others count for less than one of the last digit that is kept. -/
theorem digits_kept_le (kept : List Nat) {left : List Nat} (h : ∀ digit ∈ left, digit ≤ 9) (p : ℤ) :
    (digitsNumber (kept ++ left) : ℚ) * 10 ^ p ≤ (digitsNumber kept + 1) * 10 ^ (left.length + p) := by
  have hleft : (digitsNumber left : ℚ) ≤ 10 ^ left.length := by exact_mod_cast (digitsNumber_lt h).le
  have hsum : (digitsNumber (kept ++ left) : ℚ) ≤ (digitsNumber kept + 1) * 10 ^ left.length := by
    rw [digitsNumber_append]
    push_cast
    linarith
  calc (digitsNumber (kept ++ left) : ℚ) * 10 ^ p
      ≤ (digitsNumber kept + 1) * 10 ^ left.length * 10 ^ p := by gcongr
    _ = (digitsNumber kept + 1) * 10 ^ (left.length + p) := by
        rw [mul_assoc, ← zpow_natCast, ← zpow_add₀ (by norm_num)]

theorem significand_lt (literal : Literal) : literal.significand.1 < UInt64.size :=
  absorb_lt (absorb_lt (by decide) literal.whole) literal.fraction

section
variable {w n : Nat} {dropped unused : List Nat}

/-- Where all digits of the whole part are absorbed, at most digits of the fraction are left out. -/
theorem approaches_kept (hdecimal : literal.IsDecimal) (hwhole : absorb UInt64.size 0 literal.whole = (w, []))
    (hfraction : absorb UInt64.size w literal.fraction = (n, unused)) (hn : n < UInt64.size) :
    literal.Approaches n (-(literal.fraction.length - unused.length : ℤ)) := by
  obtain ⟨front, hfront, hw, -⟩ := absorb_spec hwhole
  obtain ⟨back, hback, hvalue, hunused⟩ := absorb_spec hfraction
  rw [Nat.zero_mul, Nat.zero_add] at hw
  rw [List.append_nil] at hfront
  have hplaces : -(literal.fraction.length - unused.length : ℤ) = unused.length + -literal.fraction.length := by ring
  have hkept : literal.whole ++ literal.fraction = (front ++ back) ++ unused := by
    rw [hfront, hback, List.append_assoc]
  have hnumber : digitsNumber (front ++ back) = n := by rw [digitsNumber_append, ← hw, hvalue]
  have hunusedDecimal : ∀ digit ∈ unused, digit ≤ 9 := fun digit hdigit =>
    hdecimal digit (hkept ▸ List.mem_append_right _ hdigit)
  rw [hplaces]
  refine ⟨hn, ?_, ?_⟩
  · rw [hkept]
    refine (digits_kept_le _ hunusedDecimal _).trans ?_
    rw [hnumber]
    gcongr
    norm_num
  · by_cases hall : unused = []
    · left
      rw [hkept, hall, List.append_nil, hnumber, List.length_nil, Nat.cast_zero, zero_add]
    · exact .inr (head_le hall hunusedDecimal hunused)

/-- Where digits of the whole part are left out, the significand is full, and has absorbed at most one digit of
    the fraction. -/
theorem approaches_dropped (hdecimal : literal.IsDecimal)
    (hwhole : absorb UInt64.size 0 literal.whole = (w, dropped)) (hdropped : dropped ≠ [])
    (hfraction : absorb UInt64.size w literal.fraction = (n, unused)) (hn : n < UInt64.size) :
    literal.Approaches n (dropped.length - (literal.fraction.length - unused.length : ℤ)) := by
  have hsize : UInt64.size = 18446744073709551616 := rfl
  obtain ⟨front, hfront, hw, hnext⟩ := absorb_spec hwhole
  obtain ⟨back, hback, hvalue, -⟩ := absorb_spec hfraction
  rw [Nat.zero_mul, Nat.zero_add] at hw
  have hleft : ∀ digit ∈ dropped ++ literal.fraction, digit ≤ 9 := fun digit hdigit =>
    hdecimal digit (by rw [hfront, List.append_assoc]; exact List.mem_append_right _ hdigit)
  have hfull := head_le hdropped (fun digit hdigit => hleft digit (List.mem_append_left _ hdigit)) hnext
  have hone : back.length ≤ 1 := by
    by_contra hmany
    have hpow : 10 ^ 2 ≤ 10 ^ back.length := Nat.pow_le_pow_right (by decide) (by omega)
    have hproduct : w * 10 ^ 2 ≤ w * 10 ^ back.length := Nat.mul_le_mul_left _ hpow
    omega
  have hgrows : w ≤ w * 10 ^ back.length := Nat.le_mul_of_pos_right _ (Nat.pow_pos (by decide))
  have hplaces : (dropped.length - (literal.fraction.length - unused.length : ℤ) : ℤ) =
      dropped.length - back.length := by
    rw [hback, List.length_append]
    push_cast
    ring
  have hten : (10 : ℚ) ^ back.length ≤ 10 := by exact_mod_cast Nat.pow_le_pow_right (by decide : 0 < 10) hone
  have hscaled : (w : ℚ) * 10 ^ back.length ≤ n := by exact_mod_cast (by omega : w * 10 ^ back.length ≤ n)
  have hkept := digits_kept_le front hleft (-literal.fraction.length)
  rw [← List.append_assoc, ← hfront, ← hw, List.length_append] at hkept
  rw [hplaces]
  refine ⟨hn, hkept.trans ?_, .inr (by omega)⟩
  calc ((w : ℚ) + 1) * 10 ^ ((dropped.length + literal.fraction.length : ℕ) + -literal.fraction.length : ℤ)
      = (w * 10 ^ back.length + 10 ^ back.length) * 10 ^ (dropped.length - back.length : ℤ) := by
        rw [← add_one_mul, mul_assoc, ← zpow_natCast (10 : ℚ) back.length, ← zpow_add₀ (by norm_num)]
        push_cast
        ring_nf
    _ ≤ (n + 10) * 10 ^ (dropped.length - back.length : ℤ) := by gcongr

end

/-- The significand of a literal and its power of ten approach the digits of the literal. -/
theorem approaches_significand (hdecimal : literal.IsDecimal) :
    literal.Approaches literal.significand.1 literal.significand.2 := by
  obtain ⟨w, dropped, hwhole⟩ : ∃ w dropped, absorb UInt64.size 0 literal.whole = (w, dropped) := ⟨_, _, rfl⟩
  obtain ⟨n, unused, hfraction⟩ : ∃ n unused, absorb UInt64.size w literal.fraction = (n, unused) := ⟨_, _, rfl⟩
  have hsignificand : literal.significand =
      (n, (dropped.length - (literal.fraction.length - unused.length : ℤ) : ℤ)) := by
    simp only [significand, hwhole, hfraction]
  have hn := literal.significand_lt
  rw [hsignificand] at hn ⊢
  by_cases hnone : dropped = []
  · subst hnone
    simpa using approaches_kept hdecimal hwhole hfraction hn
  · exact approaches_dropped hdecimal hwhole hnone hfraction hn

/-! ### Numerals that are out of range -/

/-- A significand and a power of ten have no result if the number that they approach is too great. -/
theorem scale?_eq_none {n : Nat} {p : ℤ} (hn : n < UInt64.size) (hle : (tooGreat : ℚ) ≤ (n + 10) * 10 ^ p)
    (hexact : (tooGreat : ℚ) ≤ n * 10 ^ p ∨ UInt64.size ≤ n * 10 + 9) : Double.scale? n p = none := by
  have hp : 0 ≤ p := by
    by_contra hnegative
    have hsum : (n : ℚ) + 10 ≤ (UInt64.size + 10 : ℕ) := by exact_mod_cast (by omega : n + 10 ≤ UInt64.size + 10)
    have hpow : (10 : ℚ) ^ p ≤ 10 ^ p.toNat := by
      rw [← zpow_natCast]
      exact zpow_le_zpow_right₀ (by norm_num) (Int.self_le_toNat p)
    have hbound : ((UInt64.size + 10 : ℕ) : ℚ) * 10 ^ p.toNat < tooGreat := by
      exact_mod_cast small_lt_tooGreat (by omega : p.toNat ≤ 288)
    refine absurd hle (not_le.mpr (lt_of_le_of_lt ?_ hbound))
    gcongr
  obtain ⟨k, rfl⟩ := Int.eq_ofNat_of_zero_le hp
  rw [zpow_natCast] at hle hexact
  rcases hexact with hexact | hfull
  · exact scale?_eq_none_of_le hn (by exact_mod_cast hexact)
  · exact scale?_eq_none_of_full hn hfull (by exact_mod_cast hle)

/-- A literal has no result with the power of ten that its exponent makes of that of its significand. -/
theorem scale?_significand (hdecimal : literal.IsDecimal) (hgreat : (tooGreat : ℚ) ≤ literal.absolute) (power : ℤ)
    (hpower : power = literal.significand.2 + literal.power) :
    Double.scale? literal.significand.1 power = none := by
  obtain ⟨hlt, hle, hexact⟩ := approaches_significand hdecimal
  have habsolute : literal.absolute =
      digitsNumber (literal.whole ++ literal.fraction) * 10 ^ (-literal.fraction.length : ℤ) * 10 ^ literal.power := by
    rw [absolute, mul_assoc, ← zpow_add₀ (by norm_num), neg_add_eq_sub]
  have hsum : ∀ x : ℚ, x * 10 ^ power = x * 10 ^ literal.significand.2 * 10 ^ literal.power := by
    intro x
    rw [hpower, zpow_add₀ (by norm_num), mul_assoc]
  have hpos : (0 : ℚ) ≤ 10 ^ literal.power := by positivity
  refine scale?_eq_none hlt ?_ (hexact.imp_left fun heq => ?_)
  · rw [hsum]
    exact (hgreat.trans_eq habsolute).trans (mul_le_mul_of_nonneg_right hle hpos)
  · rw [hsum, ← heq]
    exact hgreat.trans_eq habsolute

theorem le_digitsNumber_cons (value digit : Nat) (digits : List Nat) :
    value * 10 + digit ≤ value * 10 ^ (digit :: digits).length + digitsNumber (digit :: digits) := by
  have hpow : 1 ≤ 10 ^ digits.length := Nat.one_le_pow _ _ (by decide)
  rw [digitsNumber_cons, List.length_cons, Nat.pow_succ']
  nlinarith

/-- An exponent that is not read to its end is at least the limit. -/
theorem le_digitsNumber_of_unread {limit n : Nat} {digits left : List Nat} (h : absorb limit 0 digits = (n, left))
    (hleft : left ≠ []) : limit ≤ digitsNumber digits := by
  obtain ⟨taken, rfl, hn, hnext⟩ := absorb_spec h
  obtain ⟨digit, rest, rfl⟩ := List.exists_cons_of_ne_nil hleft
  rw [Nat.zero_mul, Nat.zero_add] at hn
  rw [digitsNumber_append, ← hn]
  exact (hnext digit rfl).trans (le_digitsNumber_cons n digit rest)

theorem digitsNumber_of_read {limit n : Nat} {digits : List Nat} (h : absorb limit 0 digits = (n, [])) :
    digitsNumber digits = n := by
  obtain ⟨taken, rfl, hn, -⟩ := absorb_spec h
  rw [List.append_nil, hn, Nat.zero_mul, Nat.zero_add]

theorem one_lt_tooGreat : 1 < tooGreat := by decide +kernel

/-- With an exponent below minus the number of its digits a literal is less than one. -/
theorem absolute_lt_one (hdecimal : literal.IsDecimal) (hpower : literal.power ≤ -literal.whole.length) :
    literal.absolute < 1 := by
  have hdigits : (digitsNumber (literal.whole ++ literal.fraction) : ℚ) <
      10 ^ (literal.whole.length + literal.fraction.length) := by
    exact_mod_cast List.length_append ▸ digitsNumber_lt hdecimal
  calc literal.absolute
      < 10 ^ (literal.whole.length + literal.fraction.length) * 10 ^ (literal.power - literal.fraction.length) := by
        rw [absolute]
        gcongr
    _ = 10 ^ (literal.whole.length + literal.power) := by
        rw [← zpow_natCast, ← zpow_add₀ (by norm_num)]
        push_cast
        ring_nf
    _ ≤ 1 := by
        rw [← zpow_zero (10 : ℚ)]
        exact zpow_le_zpow_right₀ (by norm_num) (by omega)

/-- No double is read of a literal that is too great. -/
theorem magnitude_eq_error (hdecimal : literal.IsDecimal) (hlength : literal.whole.length < 0x80000000)
    (hgreat : (tooGreat : ℚ) ≤ literal.absolute) : ∃ unread, literal.magnitude = .error unread := by
  have hnone := scale?_significand hdecimal hgreat
  have hone : (1 : ℚ) < literal.absolute := lt_of_lt_of_le (by exact_mod_cast one_lt_tooGreat) hgreat
  unfold magnitude
  cases hexponent : literal.exponent with
  | none =>
    refine ⟨0, ?_⟩
    dsimp only
    rw [hnone _ (by simp [Literal.power, hexponent])]
    rfl
  | some exponent =>
    obtain ⟨negative, digits⟩ := exponent
    obtain ⟨n, unread, habsorb⟩ : ∃ n unread, absorb 0x80000000 0 digits = (n, unread) := ⟨_, _, rfl⟩
    dsimp only
    rw [habsorb]
    dsimp only
    by_cases hread : unread = []
    · have hnumber := digitsNumber_of_read (hread ▸ habsorb)
      refine ⟨0, ?_⟩
      rw [if_neg (not_not.mpr hread), hnone _ (by cases negative <;> simp [Literal.power, hexponent, hnumber]; ring)]
      rfl
    · have hlimit := le_digitsNumber_of_unread habsorb hread
      have hpositive : negative = false := by
        refine Bool.eq_false_iff.mpr fun hnegative => ?_
        have hpower : literal.power = -digitsNumber digits := by simp [Literal.power, hexponent, hnegative]
        exact absurd (absolute_lt_one hdecimal (by omega)) (not_lt.mpr hone.le)
      have hsignificand : literal.significand.1 ≠ 0 := by
        intro hzero
        obtain ⟨-, -, hexact⟩ := approaches_significand hdecimal
        rw [hzero, Nat.cast_zero, zero_mul] at hexact
        rcases hexact with hexact | hfull
        · have hdigits := (mul_eq_zero.mp hexact).resolve_right (by positivity)
          rw [absolute, hdigits, zero_mul] at hone
          exact absurd hone (by norm_num)
        · exact absurd hfull (by decide)
      exact ⟨_, by rw [if_pos hread, if_pos ⟨hsignificand, by rw [hpositive]; rfl⟩]⟩

theorem absolute_lt_of_integer? {i : ℤ} (h : literal.integer? = some i) : literal.absolute < tooGreat := by
  obtain ⟨n, unread, habsorb⟩ : ∃ n unread, absorb UInt64.size 0 literal.whole = (n, unread) := ⟨_, _, rfl⟩
  have hn := absorb_lt (show 0 < UInt64.size by decide) literal.whole
  have hbound : UInt64.size < tooGreat := by decide +kernel
  unfold integer? at h
  rw [habsorb] at h hn
  split at h
  · next heq hfraction hexponent =>
    cases heq
    have hwhole := digitsNumber_of_read habsorb
    rw [absolute, Literal.power, hexponent, hfraction, List.append_nil, hwhole]
    simp only [List.length_nil, Nat.cast_zero, sub_zero, zpow_zero, mul_one]
    exact_mod_cast hn.trans hbound
  · cases h

/-- A numeral that is too great has no value. -/
theorem value_eq_error (hdecimal : literal.IsDecimal) (hlength : literal.whole.length < 0x80000000)
    (hgreat : (tooGreat : ℚ) ≤ literal.absolute) (rest : List UInt8) :
    ∃ left, literal.value rest = .error ⟨.numberOutOfRange, left⟩ := by
  obtain ⟨unread, hmagnitude⟩ := magnitude_eq_error hdecimal hlength hgreat
  have hinteger : literal.integer? = none := by
    cases h : literal.integer? with
    | none => rfl
    | some i => exact absurd hgreat (not_le.mpr (absolute_lt_of_integer? h))
  refine ⟨unread + rest.length, ?_⟩
  unfold value
  rw [hinteger, hmagnitude]

/-! ### Values are finite -/

theorem finite_of_elim {significand : Nat} (h : significand < UInt64.size) {power : ℤ} {x : Double}
    (hx : (Double.scale? significand power).elim (.error 0) .ok = (.ok x : Except Nat Double)) : x.Finite := by
  have hsize : UInt64.size ≤ 2 ^ 128 := by decide
  cases hscale : Double.scale? significand power with
  | none =>
    rw [hscale] at hx
    cases hx
  | some y =>
    rw [hscale] at hx
    cases hx
    exact finite_of_scale? (h.le.trans hsize) hscale

theorem finite_of_magnitude {x : Double} (h : literal.magnitude = .ok x) : x.Finite := by
  have hlt := literal.significand_lt
  unfold magnitude at h
  dsimp only at h
  split at h
  · exact finite_of_elim hlt h
  · split at h
    · split at h
      · cases h
      · cases h
        decide
    · exact finite_of_elim hlt h

theorem natAbs_of_integer? {i : ℤ} (h : literal.integer? = some i) : i.natAbs < UInt64.size := by
  have hlt := absorb_lt (show 0 < UInt64.size by decide) literal.whole
  unfold integer? at h
  split at h
  · next heq _ _ =>
    rw [heq] at hlt
    split at h
    · cases h
      exact hlt
    · split at h
      · cases h
        rwa [Int.natAbs_neg]
      · cases h
  · cases h

/-- The value of a numeral is a finite double, whatever its digits and its exponent are. -/
theorem finite_of_value {rest : List UInt8} {number : Number} (h : literal.value rest = .ok number) :
    number.toDouble.Finite := by
  have hsize : UInt64.size ≤ 2 ^ 128 := by decide
  unfold value at h
  split at h
  · next hinteger =>
    cases h
    exact finite_ofInt ((natAbs_of_integer? hinteger).le.trans hsize)
  · split at h
    · next hmagnitude =>
      cases h
      have hfinite := finite_of_magnitude hmagnitude
      cases hnegative : literal.negative with
      | false => exact hfinite
      | true => exact finite_neg.mpr hfinite
    · cases h

end RecordGate.Json.Literal
