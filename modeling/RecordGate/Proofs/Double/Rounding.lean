import RecordGate.Double.Scaling

/-! # Rounding keeps the order

The magnitude of a double grows with its bits, less the sign (`unitsOfBits_mono`), and is finite below those of
infinity (`finite_iff`). A quotient rounds to bits that grow with it (`roundBits_mono`), so that whether it rounds
to a finite double is known from one that is greater. -/

namespace RecordGate.Double

/-! ### Bits -/

section
variable {negative : Bool} {m n : Nat}

theorem infinityBits_lt : infinityBits < signBit := by decide

theorem toNat_ofMagnitudeBits (h : m < signBit) :
    (ofMagnitudeBits negative m).bits.toNat = (if negative then signBit else 0) + m := by
  have hsign : signBit = 0x8000000000000000 := rfl
  unfold ofMagnitudeBits
  rw [UInt64.toNat_ofNat']
  split <;> omega

theorem mod_signBit_ofMagnitudeBits (h : m < signBit) : (ofMagnitudeBits negative m).bits.toNat % signBit = m := by
  rw [toNat_ofMagnitudeBits h]
  split
  · rw [Nat.add_mod_left, Nat.mod_eq_of_lt h]
  · rw [Nat.zero_add, Nat.mod_eq_of_lt h]

theorem signBit_eq : signBit = exponentCount * fractionCount := by decide

theorem exponent_eq_div (x : Double) : x.exponent = x.bits.toNat % signBit / fractionCount := by
  rw [exponent, signBit_eq, Nat.mul_comm, Nat.mod_mul_right_div_self]

theorem fraction_eq_mod (x : Double) : x.fraction = x.bits.toNat % signBit % fractionCount := by
  rw [fraction, signBit_eq, Nat.mod_mul_left_mod]

/-- A double is finite exactly if its bits, less the sign, are below those of infinity. -/
theorem finite_iff {x : Double} : x.Finite ↔ x.bits.toNat % signBit < infinityBits := by
  have hlt : x.bits.toNat % signBit < 2048 * fractionCount := Nat.mod_lt _ (by decide)
  have hcount : 0 < fractionCount := by decide
  rw [Finite, exponent_eq_div, infinityBits, ← Nat.div_lt_iff_lt_mul hcount]
  rw [← Nat.div_lt_iff_lt_mul hcount] at hlt
  generalize x.bits.toNat % signBit / fractionCount = exponent at hlt ⊢
  omega

theorem finite_ofMagnitudeBits (h : m < signBit) : (ofMagnitudeBits negative m).Finite ↔ m < infinityBits := by
  rw [finite_iff, mod_signBit_ofMagnitudeBits h]

/-- The units that magnitude bits stand for. -/
def unitsOfBits (m : Nat) : Nat :=
  if m / fractionCount = 0 then m % fractionCount
  else (fractionCount + m % fractionCount) <<< (m / fractionCount - 1)

theorem units_eq (x : Double) : x.units = unitsOfBits (x.bits.toNat % signBit) := by
  rw [units, exponent_eq_div, fraction_eq_mod]
  rfl

theorem unitsOfBits_mono (h : m ≤ n) : unitsOfBits m ≤ unitsOfBits n := by
  have hcount : 0 < fractionCount := by decide
  have hexponents : m / fractionCount ≤ n / fractionCount := Nat.div_le_div_right h
  have hfraction := Nat.mod_lt m hcount
  have hm := Nat.div_add_mod m fractionCount
  have hn := Nat.div_add_mod n fractionCount
  unfold unitsOfBits
  rw [Nat.shiftLeft_eq, Nat.shiftLeft_eq]
  generalize m / fractionCount = e at *
  generalize n / fractionCount = e' at *
  generalize m % fractionCount = f at *
  generalize n % fractionCount = f' at *
  rcases Nat.lt_or_eq_of_le hexponents with hless | rfl
  · have hhigh : fractionCount * 2 ^ (e' - 1) ≤ (fractionCount + f') * 2 ^ (e' - 1) :=
      Nat.mul_le_mul_right _ (Nat.le_add_right _ _)
    rw [if_neg (by omega : e' ≠ 0)]
    refine Nat.le_trans ?_ hhigh
    split
    · exact Nat.le_trans (Nat.le_of_lt hfraction) (Nat.le_mul_of_pos_right _ Nat.one_le_two_pow)
    · have hdouble : 2 * 2 ^ (e - 1) ≤ 2 ^ (e' - 1) := by
        rw [← Nat.pow_succ']
        exact Nat.pow_le_pow_right (by decide) (by omega)
      calc (fractionCount + f) * 2 ^ (e - 1) ≤ fractionCount * 2 * 2 ^ (e - 1) :=
            Nat.mul_le_mul_right _ (by omega)
        _ = fractionCount * (2 * 2 ^ (e - 1)) := Nat.mul_assoc _ _ _
        _ ≤ fractionCount * 2 ^ (e' - 1) := Nat.mul_le_mul_left _ hdouble
  · split
    · omega
    · exact Nat.mul_le_mul_right _ (by omega)

theorem unitsOfBits_eq_zero_iff {m : Nat} : unitsOfBits m = 0 ↔ m = 0 := by
  have hcount : 0 < fractionCount := by decide
  have hm := Nat.div_add_mod m fractionCount
  unfold unitsOfBits
  split
  · next hsmall =>
    rw [hsmall, Nat.mul_zero, Nat.zero_add] at hm
    rw [hm]
  · next hgreat =>
    have hpos : 0 < (fractionCount + m % fractionCount) * 2 ^ (m / fractionCount - 1) :=
      Nat.mul_pos (by omega) (Nat.two_pow_pos _)
    rw [Nat.shiftLeft_eq]
    refine iff_of_false (Nat.ne_of_gt hpos) ?_
    rintro rfl
    exact hgreat (Nat.zero_div _)

theorem units_eq_zero_iff {x : Double} : x.units = 0 ↔ x.isZero = true := by
  rw [units_eq, unitsOfBits_eq_zero_iff, isZero, beq_iff_eq]

theorem units_ofMagnitudeBits (h : m < signBit) : (ofMagnitudeBits negative m).units = unitsOfBits m := by
  rw [units_eq, mod_signBit_ofMagnitudeBits h]

end

/-! ### The nearest number -/

theorem nearest_le (num den : Nat) : nearest num den ≤ num / den + 1 := by
  unfold nearest
  dsimp only
  split <;> omega

theorem le_nearest (num den : Nat) : num / den ≤ nearest num den := by
  unfold nearest
  dsimp only
  split <;> omega

section
variable {num den num' den' : Nat}

theorem div_mono (hden : 0 < den) (hden' : 0 < den') (h : num * den' ≤ num' * den) : num / den ≤ num' / den' := by
  rw [Nat.le_div_iff_mul_le hden']
  refine Nat.le_of_mul_le_mul_right ?_ hden
  calc num / den * den' * den = num / den * den * den' := Nat.mul_right_comm _ _ _
    _ ≤ num * den' := Nat.mul_le_mul_right _ (Nat.div_mul_le_self _ _)
    _ ≤ num' * den := h

theorem nearest_mono (hden : 0 < den) (hden' : 0 < den') (h : num * den' ≤ num' * den) :
    nearest num den ≤ nearest num' den' := by
  rcases Nat.lt_or_eq_of_le (div_mono hden hden' h) with hless | hsame
  · exact Nat.le_trans (nearest_le num den) (Nat.le_trans hless (le_nearest num' den'))
  · have hrests : num % den * den' ≤ num' % den' * den := by
      have hnum := Nat.div_add_mod num den
      have hnum' := Nat.div_add_mod num' den'
      rw [← hsame] at hnum'
      rw [← hnum, ← hnum', Nat.add_mul, Nat.add_mul, Nat.mul_right_comm den, Nat.mul_right_comm den',
        Nat.mul_comm den den'] at h
      exact Nat.le_of_add_le_add_left h
    -- where the greater quotient is rounded down, so is the smaller: a rest of half is one of both
    have hhalf : den ≤ 2 * (num % den) → 2 * (num' % den') ≤ den' →
        2 * (num % den) = den ∧ 2 * (num' % den') = den' := by
      intro hlow hhigh
      have hproduct : den * den' ≤ 2 * (num % den) * den' := Nat.mul_le_mul_right _ hlow
      have hproduct' : 2 * (num' % den') * den ≤ den' * den := Nat.mul_le_mul_right _ hhigh
      rw [Nat.mul_assoc] at hproduct hproduct'
      have hback : 2 * (num % den) * den' ≤ den * den' := by
        rw [Nat.mul_assoc, Nat.mul_comm den]
        omega
      have hback' : den' * den ≤ 2 * (num' % den') * den := by
        rw [Nat.mul_assoc, Nat.mul_comm den']
        omega
      exact ⟨Nat.le_antisymm (Nat.le_of_mul_le_mul_right hback hden') hlow,
        Nat.le_antisymm hhigh (Nat.le_of_mul_le_mul_right hback' hden)⟩
    unfold nearest
    dsimp only
    rw [← hsame]
    split
    · split <;> omega
    · split
      · omega
      · omega

/-! ### Rounding -/

theorem log2_mono {a b : Nat} (h : a ≤ b) : a.log2 ≤ b.log2 := by
  by_cases ha : a = 0
  · rw [ha]
    exact Nat.zero_le _
  · exact (Nat.le_log2 (by omega)).mpr (Nat.le_trans (Nat.log2_self_le ha) h)

/-- How far a quotient of units is shifted to leave 53 significant bits. -/
def excess (quotient : Nat) : Nat :=
  quotient.log2 - 52

/-- A rounded quotient has at most 53 bits, and all of them where units are left out. -/
theorem nearest_excess_le (units den : Nat) :
    nearest units (den <<< excess (units / den)) ≤ 2 * fractionCount := by
  have hquotient : units / den / 2 ^ excess (units / den) < 2 * fractionCount := by
    rw [Nat.div_lt_iff_lt_mul (Nat.two_pow_pos _)]
    calc units / den < 2 ^ ((units / den).log2 + 1) := Nat.lt_log2_self
      _ ≤ 2 ^ (53 + excess (units / den)) := Nat.pow_le_pow_right (by decide) (by unfold excess; omega)
      _ = 2 * fractionCount * 2 ^ excess (units / den) := by rw [Nat.pow_add]; rfl
  have hnearest := nearest_le units (den <<< excess (units / den))
  rw [Nat.shiftLeft_eq, ← Nat.div_div_eq_div_mul] at hnearest
  rw [Nat.shiftLeft_eq]
  omega

theorem le_nearest_excess (units den : Nat) (h : 0 < excess (units / den)) :
    fractionCount ≤ nearest units (den <<< excess (units / den)) := by
  refine Nat.le_trans ?_ (le_nearest _ _)
  have hsome : units / den ≠ 0 := by
    intro hzero
    rw [hzero] at h
    exact absurd h (by decide)
  rw [Nat.shiftLeft_eq, ← Nat.div_div_eq_div_mul, Nat.le_div_iff_mul_le (Nat.two_pow_pos _)]
  calc fractionCount * 2 ^ excess (units / den) = 2 ^ (52 + excess (units / den)) := by rw [Nat.pow_add]; rfl
    _ ≤ 2 ^ (units / den).log2 := Nat.pow_le_pow_right (by decide) (by unfold excess at h ⊢; omega)
    _ ≤ units / den := Nat.log2_self_le hsome

/-- The bits of a rounded quotient grow with the quotient. -/
theorem roundBits_mono (hden : 0 < den) (hden' : 0 < den') (h : num * den' ≤ num' * den) :
    roundBits num den ≤ roundBits num' den' := by
  have hunits : num * unitsOfOne * den' ≤ num' * unitsOfOne * den := by
    rw [Nat.mul_right_comm, Nat.mul_right_comm num']
    exact Nat.mul_le_mul_right _ h
  have hunfold : ∀ a b, roundBits a b = min (excess (a * unitsOfOne / b) * fractionCount +
    nearest (a * unitsOfOne) (b <<< excess (a * unitsOfOne / b))) infinityBits := fun _ _ => rfl
  rw [hunfold, hunfold]
  generalize num * unitsOfOne = units at hunits ⊢
  generalize num' * unitsOfOne = units' at hunits ⊢
  have hexcess : excess (units / den) ≤ excess (units' / den') :=
    Nat.sub_le_sub_right (log2_mono (div_mono hden hden' hunits)) 52
  refine Nat.le_min.mpr ⟨Nat.le_trans (Nat.min_le_left _ _) ?_, Nat.min_le_right _ _⟩
  rcases Nat.lt_or_eq_of_le hexcess with hless | hsame
  · have hlow := nearest_excess_le units den
    have hhigh := le_nearest_excess units' den' (by omega)
    have hsteps : (excess (units / den) + 1) * fractionCount ≤ excess (units' / den') * fractionCount :=
      Nat.mul_le_mul_right _ hless
    rw [Nat.add_mul] at hsteps
    omega
  · rw [hsame]
    refine Nat.add_le_add_left (nearest_mono ?_ ?_ ?_) _
    · rw [Nat.shiftLeft_eq]
      exact Nat.mul_pos hden (Nat.two_pow_pos _)
    · rw [Nat.shiftLeft_eq]
      exact Nat.mul_pos hden' (Nat.two_pow_pos _)
    · rw [Nat.shiftLeft_eq, Nat.shiftLeft_eq, ← Nat.mul_assoc, ← Nat.mul_assoc]
      exact Nat.mul_le_mul_right _ hunits

theorem roundBits_le (num den : Nat) : roundBits num den ≤ infinityBits :=
  Nat.min_le_right _ _

theorem roundBits_lt_signBit (num den : Nat) : roundBits num den < signBit :=
  Nat.lt_of_le_of_lt (roundBits_le num den) infinityBits_lt

end

end RecordGate.Double
