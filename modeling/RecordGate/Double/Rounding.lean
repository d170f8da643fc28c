import RecordGate.Double.Basic

/-! # Rounding to the nearest double

`ofRatio` rounds a quotient of naturals to the nearest double, and a quotient halfway between two doubles
to the one whose last bit is zero. Whatever is at least halfway from the greatest finite double to
`2 ^ 1024` becomes an infinity. Products and quotients of doubles are the exact results, rounded once. -/

namespace RecordGate.Double

/-- The natural number nearest to a quotient; of two equally near, the even one. -/
def nearest (num den : Nat) : Nat :=
  let floor := num / den
  let rest := num % den
  if 2 * rest < den ∨ (2 * rest = den ∧ floor % 2 = 0) then floor else floor + 1

/-- The number of units in one. -/
def unitsOfOne : Nat := 1 <<< 1074

/-- The magnitude bits of the double nearest to `num / den`. A quotient of `2 ^ (52 + shift)` units or
    more is rounded to a multiple of `2 ^ shift` units, which leaves 53 significant bits. -/
def roundBits (num den : Nat) : Nat :=
  let units := num * unitsOfOne
  let shift := (units / den).log2 - 52
  min (shift * fractionCount + nearest units (den <<< shift)) infinityBits

/-- The double nearest to `num / den`, with a given sign. -/
def ofRatio (negative : Bool) (num den : Nat) : Double :=
  ofMagnitudeBits negative (roundBits num den)

/-- The double nearest to a natural number. -/
def ofNat (n : Nat) : Double :=
  ofRatio false n 1

/-- The double nearest to an integer; zero is positive. -/
def ofInt (i : Int) : Double :=
  ofRatio (i < 0) i.natAbs 1

/-- The double nearest to `significand * 10 ^ power`, with a given sign. A number from `10 ^ 310` on is
    infinite and one below `10 ^ -330` is zero, whatever its digits are. -/
def ofDecimal (negative : Bool) (significand : Nat) (power : Int) : Double :=
  let place := power + (Nat.toDigits 10 significand).length
  if significand = 0 ∨ place < -330 then ofMagnitudeBits negative 0
  else if 310 < place then ofMagnitudeBits negative infinityBits
  else ofRatio negative (significand * Nat.pow 10 power.toNat) (Nat.pow 10 (-power).toNat)

/-- The product of two finite doubles, rounded. -/
def mul (x y : Double) : Double :=
  ofRatio (x.negative != y.negative) (x.units * y.units) (unitsOfOne * unitsOfOne)

/-- The quotient of two finite doubles of which the second is not zero, rounded. -/
def div (x y : Double) : Double :=
  ofRatio (x.negative != y.negative) x.units y.units

/-- The double equal to a binary32 number, given by its bits. A number that is not finite stays so. -/
def ofSingleBits (bits : UInt32) : Double :=
  let exponent := bits.toNat / 0x800000 % 0x100
  let fraction := bits.toNat % 0x800000
  let negative : Bool := 0x80000000 ≤ bits.toNat
  if exponent = 255 then ofMagnitudeBits negative (infinityBits + fraction <<< 29)
  else if exponent = 0 then ofRatio negative fraction (1 <<< 149)
  else ofRatio negative ((0x800000 + fraction) <<< (exponent - 1)) (1 <<< 149)

end RecordGate.Double
