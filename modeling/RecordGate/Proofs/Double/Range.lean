import Mathlib.Algebra.Group.Nat.Defs
import RecordGate.Proofs.Double.Rounding

/-! # Finite results

A quotient up to `2 ^ 128` rounds to a finite double (`moderate_ofRatio`), and so do integers of 64 bits, binary32
numbers, and quotients by powers of ten, one behind the other. A significand of 64 bits that is scaled by a power
of ten is finite if there is a result at all (`finite_of_scale?`), and from `1.797693134862316 * 10 ^ 308` on
there is none (`scale?_eq_none_of_le`). -/

namespace RecordGate.Double

/-- At most `2 ^ 128`. -/
def Moderate (x : Double) : Prop :=
  x.units ≤ 2 ^ 128 * unitsOfOne

variable {negative : Bool} {num den : Nat}

theorem finite_ofRatio : (ofRatio negative num den).Finite ↔ roundBits num den < infinityBits :=
  finite_ofMagnitudeBits (roundBits_lt_signBit num den)

theorem units_ofRatio : (ofRatio negative num den).units = unitsOfBits (roundBits num den) :=
  units_ofMagnitudeBits (roundBits_lt_signBit num den)

theorem moderate_ofRatio (hden : 0 < den) (h : num ≤ 2 ^ 128 * den) :
    (ofRatio negative num den).Finite ∧ (ofRatio negative num den).Moderate := by
  have hround : roundBits num den ≤ roundBits (2 ^ 128) 1 :=
    roundBits_mono hden Nat.one_pos (by rwa [Nat.mul_one])
  have hfinite : roundBits (2 ^ 128) 1 < infinityBits := by decide +kernel
  have hunits : unitsOfBits (roundBits (2 ^ 128) 1) = 2 ^ 128 * unitsOfOne := by decide +kernel
  refine ⟨finite_ofRatio.mpr (Nat.lt_of_le_of_lt hround hfinite), ?_⟩
  rw [Moderate, units_ofRatio, ← hunits]
  exact unitsOfBits_mono hround

theorem finite_ofInt {i : Int} (h : i.natAbs ≤ 2 ^ 128) : (ofInt i).Finite :=
  (moderate_ofRatio Nat.one_pos (by rwa [Nat.mul_one])).1

theorem finite_neg {x : Double} : x.neg.Finite ↔ x.Finite := by
  rw [neg, finite_ofMagnitudeBits (Nat.mod_lt _ (by decide)), ← finite_iff]

/-! ### Binary32 numbers -/

/-- A binary32 number is finite as a double exactly if its own exponent is not all ones. -/
theorem finite_ofSingleBits (bits : UInt32) :
    (ofSingleBits bits).Finite ↔ bits.toNat / 0x800000 % 0x100 ≠ 255 := by
  have hexponent := Nat.mod_lt (bits.toNat / 0x800000) (show 0 < 0x100 by decide)
  have hfraction := Nat.mod_lt bits.toNat (show 0 < 0x800000 by decide)
  unfold ofSingleBits
  dsimp only
  generalize bits.toNat / 0x800000 % 0x100 = exponent at hexponent ⊢
  generalize bits.toNat % 0x800000 = fraction at hfraction ⊢
  have hden : 0 < 1 <<< 149 := by decide
  split
  · next hall =>
    have hlt : infinityBits + fraction <<< 29 < signBit := by
      have hinfinity : infinityBits + 0x800000 * 2 ^ 29 ≤ signBit := by decide
      rw [Nat.shiftLeft_eq]
      omega
    rw [finite_ofMagnitudeBits hlt]
    omega
  split
  · next hnone =>
    refine iff_of_true (moderate_ofRatio hden ?_).1 (by omega)
    have hone : 0x800000 ≤ 2 ^ 128 * (1 <<< 149) := by decide
    omega
  · next hall _ =>
    refine iff_of_true (moderate_ofRatio hden ?_).1 hall
    rw [Nat.shiftLeft_eq]
    calc (0x800000 + fraction) * 2 ^ (exponent - 1) ≤ 2 ^ 24 * 2 ^ 253 :=
          Nat.mul_le_mul (by omega) (Nat.pow_le_pow_right (by decide) (by omega))
      _ = 2 ^ 128 * (1 <<< 149) := by decide

/-! ### Scaling -/

theorem le_units_tenTo (n : Nat) : unitsOfOne ≤ (tenTo n).units := by
  have hone : unitsOfBits (roundBits 1 1) = unitsOfOne := by decide +kernel
  have hpow : 1 ≤ Nat.pow 10 n := Nat.pow_pos (by decide)
  rw [tenTo, ofNat, units_ofRatio, ← hone]
  exact unitsOfBits_mono (roundBits_mono Nat.one_pos Nat.one_pos (by omega))

theorem units_tenTo_pos (n : Nat) : 0 < (tenTo n).units :=
  Nat.lt_of_lt_of_le (by decide : 0 < unitsOfOne) (le_units_tenTo n)

theorem moderate_div_tenTo {x : Double} (h : x.Moderate) (n : Nat) :
    (x.div (tenTo n)).Finite ∧ (x.div (tenTo n)).Moderate :=
  moderate_ofRatio (units_tenTo_pos n) (Nat.le_trans h (Nat.mul_le_mul_left _ (le_units_tenTo n)))

theorem finite_scaleDown {x : Double} (hfinite : x.Finite) (h : x.Moderate) (n : Nat) : (scaleDown x n).Finite := by
  fun_induction scaleDown x n with
  | case1 x n => exact (moderate_div_tenTo h n).1
  | case2 => exact hfinite
  | case3 x n _ _ ih => exact ih (moderate_div_tenTo h greatestPower).1 (moderate_div_tenTo h greatestPower).2

theorem finite_of_scale? {significand : Nat} (hsignificand : significand ≤ 2 ^ 128) {power : Int} {x : Double}
    (h : scale? significand power = some x) : x.Finite := by
  obtain ⟨hfinite, hmoderate⟩ : (ofNat significand).Finite ∧ (ofNat significand).Moderate :=
    moderate_ofRatio Nat.one_pos (by rwa [Nat.mul_one])
  unfold scale? at h
  dsimp only at h
  split at h
  · cases h
    exact finite_scaleDown hfinite hmoderate _
  split at h
  · split at h
    · next hproduct =>
      cases h
      exact hproduct
    · cases h
  · split at h
    · cases h
      exact hfinite
    · cases h

/-! ### Overflow -/

/-- `1.797693134862316 * 10 ^ 308`: no double is as great. -/
def tooGreat : Nat :=
  1797693134862316 * Nat.pow 10 293

theorem units_ofNat_mono {m n : Nat} (h : m ≤ n) : (ofNat m).units ≤ (ofNat n).units := by
  rw [ofNat, ofNat, units_ofRatio, units_ofRatio]
  exact unitsOfBits_mono (roundBits_mono Nat.one_pos Nat.one_pos (Nat.mul_le_mul_right 1 h))

theorem isZero_ofNat {n : Nat} (h : 0 < n) : (ofNat n).isZero = false := by
  have hone : 0 < roundBits 1 1 := by decide +kernel
  have hround : roundBits 1 1 ≤ roundBits n 1 := roundBits_mono Nat.one_pos Nat.one_pos (Nat.mul_le_mul_right 1 h)
  rw [isZero, ofNat, ofRatio, mod_signBit_ofMagnitudeBits (roundBits_lt_signBit n 1)]
  exact beq_false_of_ne (by omega)

/-- A product that is no finite double is none for any greater number. -/
theorem not_finite_mul_of_le {m n : Nat} (h : m ≤ n) {y : Double} (hm : ¬((ofNat m).mul y).Finite) :
    ¬((ofNat n).mul y).Finite := by
  have hden : 0 < unitsOfOne * unitsOfOne := by decide +kernel
  rw [mul, finite_ofRatio] at hm ⊢
  have hround : roundBits ((ofNat m).units * y.units) (unitsOfOne * unitsOfOne) ≤
      roundBits ((ofNat n).units * y.units) (unitsOfOne * unitsOfOne) :=
    roundBits_mono hden hden (Nat.mul_le_mul_right _ (Nat.mul_le_mul_right _ (units_ofNat_mono h)))
  omega

/-- A significand that is too great with `10 ^ 289`, or was before its last digit was lost. -/
def fullSignificand : Nat := 17976931348623159990

theorem fullSignificand_not_finite : ¬((ofNat fullSignificand).mul (tenTo 289)).Finite := by
  decide +kernel

/-- For each power of ten from `10 ^ 289` on, the least significand that is too great with it. -/
theorem leastTooGreat_not_finite : ∀ i ≤ 19,
    ¬((ofNat ((tooGreat + Nat.pow 10 (289 + i) - 1) / Nat.pow 10 (289 + i))).mul (tenTo (289 + i))).Finite := by
  decide +kernel

theorem scale?_eq_none_of_not_finite {n k : Nat} (hn : 0 < n)
    (h : k ≤ greatestPower → ¬((ofNat n).mul (tenTo k)).Finite) : scale? n k = none := by
  unfold scale?
  dsimp only
  rw [if_neg (by omega : ¬(k : Int) < 0)]
  split
  · next hk => exact if_neg (h (Int.ofNat_le.mp hk))
  · rw [isZero_ofNat hn]
    rfl

/-- With less than `10 ^ 289` no significand of 64 bits is too great. -/
theorem small_lt_tooGreat {k : Nat} (h : k ≤ 288) : (UInt64.size + 10) * Nat.pow 10 k < tooGreat := by
  have hall : ∀ k ≤ 288, (UInt64.size + 10) * Nat.pow 10 k < tooGreat := by decide +kernel
  exact hall k h

/-- With more than that each one is that has no room for another digit. -/
theorem tooGreat_le_full {k : Nat} (h : 290 ≤ k) (hgreatest : k ≤ greatestPower) :
    tooGreat ≤ 1844674407370955161 * Nat.pow 10 k := by
  have hall : ∀ i ≤ 18, tooGreat ≤ 1844674407370955161 * Nat.pow 10 (290 + i) := by decide +kernel
  obtain ⟨i, rfl⟩ := Nat.exists_eq_add_of_le h
  exact hall i (by unfold greatestPower at hgreatest; omega)

theorem lt_tooGreat_of_eq {k : Nat} (h : k = 289) : (fullSignificand + 9) * Nat.pow 10 k < tooGreat := by
  subst h
  decide +kernel

/-- What is too great has no result, if the significand is of 64 bits. -/
theorem scale?_eq_none_of_le {n k : Nat} (hn : n < UInt64.size) (h : tooGreat ≤ n * Nat.pow 10 k) :
    scale? n k = none := by
  have hsome : 0 < n := by
    rcases Nat.eq_zero_or_pos n with rfl | hsome
    · have hpos : 0 < tooGreat := by decide +kernel
      omega
    · exact hsome
  have hk : 289 ≤ k := by
    refine Nat.lt_of_not_le fun hless => Nat.not_lt_of_le h ?_
    exact Nat.lt_of_le_of_lt (Nat.mul_le_mul_right _ (by omega)) (small_lt_tooGreat hless)
  obtain ⟨i, rfl⟩ := Nat.exists_eq_add_of_le hk
  refine scale?_eq_none_of_not_finite hsome fun hgreatest =>
    not_finite_mul_of_le ?_ (leastTooGreat_not_finite i (by unfold greatestPower at hgreatest; omega))
  have hpow : 0 < Nat.pow 10 (289 + i) := Nat.pow_pos (by decide)
  refine Nat.le_of_lt_succ ((Nat.div_lt_iff_lt_mul hpow).mpr ?_)
  rw [Nat.succ_mul]
  omega

/-- Nor has what is too great only with the digits that a full significand has lost. -/
theorem scale?_eq_none_of_full {n k : Nat} (hn : n < UInt64.size) (hfull : UInt64.size ≤ n * 10 + 9)
    (h : tooGreat ≤ (n + 10) * Nat.pow 10 k) : scale? n k = none := by
  have hsize : UInt64.size = 18446744073709551616 := rfl
  rcases Nat.lt_trichotomy k 289 with hless | hk | hmore
  · have hproduct : (n + 10) * Nat.pow 10 k ≤ (UInt64.size + 10) * Nat.pow 10 k := Nat.mul_le_mul_right _ (by omega)
    have hsmall := small_lt_tooGreat (Nat.le_of_lt_succ hless)
    omega
  · have hsome : fullSignificand ≤ n := by
      refine Nat.le_of_not_lt fun hless => Nat.not_lt_of_le h ?_
      exact Nat.lt_of_le_of_lt (Nat.mul_le_mul_right _ (by omega)) (lt_tooGreat_of_eq hk)
    refine scale?_eq_none_of_not_finite (by omega) fun _ => not_finite_mul_of_le hsome ?_
    rw [hk]
    exact fullSignificand_not_finite
  · by_cases hgreatest : k ≤ greatestPower
    · refine scale?_eq_none_of_le hn (Nat.le_trans (tooGreat_le_full hmore hgreatest) ?_)
      exact Nat.mul_le_mul_right _ (by omega)
    · exact scale?_eq_none_of_not_finite (by omega) fun h => absurd h hgreatest

end RecordGate.Double
