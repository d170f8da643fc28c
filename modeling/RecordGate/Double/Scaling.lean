import RecordGate.Double.Rounding

/-! # Doubles from a significand and a power of ten

The significand becomes a double first and is then multiplied or divided by a power of ten, which is a
double too. Each step rounds, so a significand of more than 53 bits or a power above `10 ^ 22` may end one
double away from the nearest. What exceeds the greatest double has no result. -/

namespace RecordGate.Double

/-- The greatest power of ten that is a finite double. -/
def greatestPower : Nat := 308

/-- The double nearest to a power of ten. -/
def tenTo (n : Nat) : Double :=
  ofNat (Nat.pow 10 n)

/-- A double divided by a power of ten, by the greatest power as often as needed. -/
def scaleDown (x : Double) (n : Nat) : Double :=
  if n ≤ greatestPower then x.div (tenTo n)
  else if x.isZero then x
  else scaleDown (x.div (tenTo greatestPower)) (n - greatestPower)
termination_by n
decreasing_by simp only [greatestPower] at *; omega

/-- A significand times a power of ten, unless that is too great for a double. -/
def scale? (significand : Nat) (power : Int) : Option Double :=
  let x := ofNat significand
  if power < 0 then some (scaleDown x power.natAbs)
  else if power ≤ greatestPower then
    let y := x.mul (tenTo power.toNat)
    if y.Finite then some y else none
  else if x.isZero then some x
  else none

end RecordGate.Double
