import Mathlib.Algebra.Group.Nat.Defs
import RecordGate.Double.Shortest
import RecordGate.Proofs.Double.Rounding

/-! # The digits of a double

A positive double has a decimal with digits (`shortest_digits_pos`). Whatever reads back as a positive double
is positive, because the numbers that round to it end at least half of it above zero. And where no decimal of
at most sixteen digits reads back, the double counts more than one of its seventeenth digit. -/

namespace RecordGate.Double

variable {x : Double}

/-! ### Numbers that read back -/

theorem spacing_le_units (h : 0 < x.units) : x.spacing ≤ x.units := by
  unfold spacing
  unfold units at h ⊢
  split
  · next hexponent =>
    rw [if_pos hexponent] at h
    rw [hexponent]
    exact h
  · rw [Nat.shiftLeft_eq, Nat.shiftLeft_eq]
    exact Nat.mul_le_mul_right _ (Nat.le_trans (by decide) (Nat.le_add_right fractionCount _))

theorem quartersBelow_le (x : Double) : x.quartersBelow ≤ 2 * x.spacing := by
  unfold quartersBelow
  split <;> omega

theorem pos_of_readsBack {quarters grid : Nat} (h : 0 < x.units) (hgrid : 0 < grid)
    (hreads : x.readsBack quarters grid = true) : 0 < quarters := by
  have hspacing := spacing_le_units h
  have hquarters := quartersBelow_le x
  have hlow : 0 < (4 * x.units - x.quartersBelow) * grid := Nat.mul_pos (by omega) hgrid
  unfold readsBack at hreads
  dsimp only at hreads
  split at hreads <;> simp only [Bool.and_eq_true, decide_eq_true_eq] at hreads <;> omega

theorem pos_of_neighbour? {place : Int} {count : Nat} (h : 0 < x.units)
    (hcount : x.neighbour? place = some count) : 0 < count := by
  have hgrid : 0 < Nat.pow 10 (-place).toNat := Nat.pow_pos (by decide)
  have hbelow : ∀ {below step : Nat}, x.readsBack (4 * below * step) (Nat.pow 10 (-place).toNat) = true →
      0 < below := fun hreads =>
    Nat.pos_of_mul_pos_left (Nat.pos_of_mul_pos_right (pos_of_readsBack h hgrid hreads))
  unfold neighbour? at hcount
  dsimp only at hcount
  split at hcount
  · next hreads _ =>
    cases hcount
    exact Nat.lt_of_lt_of_le (hbelow hreads) (le_nearest _ _)
  · next hreads _ =>
    cases hcount
    exact hbelow hreads
  · cases hcount
    exact Nat.succ_pos _
  · cases hcount

/-! ### The seventeenth digit -/

theorem pow_length_le {n : Nat} (h : 0 < n) : 10 ^ ((Nat.toDigits 10 n).length - 1) ≤ n := by
  by_cases hone : (Nat.toDigits 10 n).length ≤ 1
  · rw [Nat.sub_eq_zero_of_le hone]
    exact h
  · refine Nat.not_lt.mp fun hlt => ?_
    have hlength := (Nat.length_toDigits_le_iff (by decide) (by omega)).mpr hlt
    omega

/-- The first digit of a double is looked for in `10 ^ -324`. -/
def finest : Nat := 324

theorem unitsOfOne_le : unitsOfOne ≤ 10 ^ finest := by
  have hsmall : 2 ^ 179 ≤ 10 ^ 54 := by decide
  calc unitsOfOne = (2 ^ 179) ^ 6 := by decide
    _ ≤ (10 ^ 54) ^ 6 := Nat.pow_le_pow_left hsmall 6
    _ = 10 ^ finest := by rw [← Nat.pow_mul, show 54 * 6 = finest from rfl]

theorem ten_pow_pos (n : Nat) : 0 < 10 ^ n :=
  Nat.pow_pos (by decide)

/-- The double is at least its first digit. -/
theorem leading_le (h : 0 < x.units) :
    ∃ k : Nat, x.leadingPlace = k - finest ∧ 10 ^ k * unitsOfOne ≤ x.units * 10 ^ finest := by
  unfold leadingPlace
  rw [show 324 = finest from rfl, Nat.pow_eq]
  have hfinest : finest = 324 := rfl
  have hquotient : 0 < x.units * 10 ^ finest / unitsOfOne :=
    Nat.div_pos (Nat.le_trans unitsOfOne_le (Nat.le_mul_of_pos_left _ h)) (by decide)
  have hdigits := Nat.length_toDigits_pos (b := 10) (n := x.units * 10 ^ finest / unitsOfOne)
  have hle := Nat.le_trans (Nat.mul_le_mul_right unitsOfOne (pow_length_le hquotient)) (Nat.div_mul_le_self _ _)
  generalize (Nat.toDigits 10 (x.units * 10 ^ finest / unitsOfOne)).length = length at hdigits hle ⊢
  exact ⟨length - 1, by omega, hle⟩

/-- The double counts at least one of its first digit and of every later one. -/
theorem pos_of_nearest (h : 0 < x.units) {place : Int} (hplace : place ≤ x.leadingPlace) :
    0 < nearest (x.units * Nat.pow 10 (-place).toNat) (unitsOfOne * Nat.pow 10 place.toNat) := by
  obtain ⟨k, hleading, hk⟩ := leading_le h
  rw [hleading] at hplace
  obtain ⟨extra, hextra⟩ : ∃ extra : Nat, k + (-place).toNat = place.toNat + finest + extra :=
    ⟨k + (-place).toNat - (place.toNat + finest), by omega⟩
  have hle : unitsOfOne * 10 ^ place.toNat ≤ x.units * 10 ^ (-place).toNat := by
    refine Nat.le_of_mul_le_mul_right ?_ (ten_pow_pos finest)
    calc unitsOfOne * 10 ^ place.toNat * 10 ^ finest
        ≤ unitsOfOne * 10 ^ place.toNat * 10 ^ finest * 10 ^ extra :=
          Nat.le_mul_of_pos_right _ (ten_pow_pos extra)
      _ = unitsOfOne * 10 ^ (place.toNat + finest + extra) := by rw [Nat.pow_add, Nat.pow_add, Nat.mul_assoc,
          Nat.mul_assoc, Nat.mul_assoc]
      _ = 10 ^ k * unitsOfOne * 10 ^ (-place).toNat := by rw [← hextra, Nat.pow_add, Nat.mul_left_comm,
          Nat.mul_assoc]
      _ ≤ x.units * 10 ^ finest * 10 ^ (-place).toNat := Nat.mul_le_mul_right _ hk
      _ = x.units * 10 ^ (-place).toNat * 10 ^ finest := Nat.mul_right_comm _ _ _
  have hstep : 0 < unitsOfOne * 10 ^ place.toNat := Nat.mul_pos (by decide) (ten_pow_pos _)
  rw [Nat.pow_eq, Nat.pow_eq]
  exact Nat.lt_of_lt_of_le (Nat.div_pos hle hstep) (le_nearest _ _)

/-! ### The shortest decimal -/

theorem Decimal.ofCount_digits_pos {n count : Nat} (h : 0 < count) (place : Int) :
    0 < (Decimal.ofCount n count place).digits := by
  unfold Decimal.ofCount
  split
  · exact Nat.one_pos
  · exact h

/-- The shortest decimal of a positive double is positive. -/
theorem shortest_digits_pos (h : 0 < x.units) : 0 < x.shortest.digits := by
  unfold shortest
  dsimp only
  generalize htries : (List.range' 1 16).findSome? _ = tries
  cases tries with
  | none =>
    rw [Option.getD_none]
    exact Decimal.ofCount_digits_pos (pos_of_nearest h (by omega)) _
  | some decimal =>
    obtain ⟨n, -, hn⟩ := List.exists_of_findSome?_eq_some htries
    obtain ⟨count, hcount, rfl⟩ := Option.map_eq_some_iff.mp hn
    rw [Option.getD_some]
    exact Decimal.ofCount_digits_pos (pos_of_neighbour? h hcount) _

end RecordGate.Double
