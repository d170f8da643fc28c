/-! # Binary64 numbers

A double is its 64 bits: a sign, eleven bits of exponent and 52 bits of fraction. Every finite double is a
whole number of the least positive one, `2 ^ -1074`, so its magnitude is a natural number (`units`) and
comparison, rounding and printing are exact arithmetic on naturals, with shifts for powers of two. -/

namespace RecordGate

/-- A binary64 number, given by its bits. -/
structure Double where
  bits : UInt64
  deriving DecidableEq

namespace Double

/-- The number of fractions of 52 bits. -/
def fractionCount : Nat := 0x10000000000000

/-- The number of exponents of eleven bits. -/
def exponentCount : Nat := 0x800

/-- The number that the sign bit stands for. -/
def signBit : Nat := 0x8000000000000000

/-- The eleven bits of the exponent. -/
def exponent (x : Double) : Nat :=
  x.bits.toNat / fractionCount % exponentCount

/-- The 52 bits of the fraction. -/
def fraction (x : Double) : Nat :=
  x.bits.toNat % fractionCount

/-- Whether the sign bit is set. -/
def negative (x : Double) : Bool :=
  signBit ≤ x.bits.toNat

/-- The exponent is not all ones. -/
def Finite (x : Double) : Prop :=
  x.exponent ≠ 2047

instance (x : Double) : Decidable x.Finite :=
  inferInstanceAs (Decidable (x.exponent ≠ 2047))

/-- The exponent is all ones and the fraction is not zero: not a number. -/
def isNaN (x : Double) : Bool :=
  x.exponent == 2047 && x.fraction != 0

/-- The exponent is all ones and the fraction is zero. -/
def isInfinite (x : Double) : Bool :=
  x.exponent == 2047 && x.fraction == 0

/-- The magnitude of a finite double, counted in units of `2 ^ -1074`. -/
def units (x : Double) : Nat :=
  if x.exponent = 0 then x.fraction else (fractionCount + x.fraction) <<< (x.exponent - 1)

/-- The double with a given sign whose other bits are a given number. -/
def ofMagnitudeBits (negative : Bool) (magnitude : Nat) : Double :=
  ⟨UInt64.ofNat ((if negative then signBit else 0) + magnitude)⟩

/-- The bits of infinity, less its sign. -/
def infinityBits : Nat := 2047 * fractionCount

/-- The bits of what is not a number, less its sign. -/
def nanBits : Nat := infinityBits + fractionCount / 2

/-- Positive zero. -/
def zero : Double := ⟨0⟩

/-- Whether the double is one of the two zeros. -/
def isZero (x : Double) : Bool :=
  x.bits.toNat % signBit == 0

/-- The same double with the other sign. -/
def neg (x : Double) : Double :=
  ofMagnitudeBits (!x.negative) (x.bits.toNat % signBit)

/-- At or below zero: one of the zeros, or negative and a number. -/
def isNonPositive (x : Double) : Bool :=
  !x.isNaN && (x.isZero || x.negative)

end RecordGate.Double
