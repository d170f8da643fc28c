import RecordGate.Double.Rounding

/-! # The shortest decimal of a double

A decimal reads back as a double exactly when it lies in the interval of numbers that round to it. On the
grid of decimals with `n` significant digits only the two neighbours of the double can lie nearest to it,
so the shortest decimal is found by trying the neighbours for one digit, two digits and so on; seventeen
digits always suffice. Of two neighbours that both read back the nearer one is taken. All comparisons are
exact: numbers are counted in quarter units of the least positive double. -/

namespace RecordGate.Double

/-- A positive decimal: `digits * 10 ^ exponent`. -/
structure Decimal where
  digits : Nat
  exponent : Int
  deriving DecidableEq

/-- The distance from the double to the next one above, in units. -/
def spacing (x : Double) : Nat :=
  1 <<< (x.exponent - 1)

/-- The distance down to the number halfway to the next double below, in quarter units: below a power of
    two the doubles lie twice as close. -/
def quartersBelow (x : Double) : Nat :=
  if x.fraction = 0 ∧ 1 < x.exponent then x.spacing else 2 * x.spacing

/-- Whether `quarters / grid` quarter units round to the double. The ends of the interval do so when the
    last bit of the fraction is zero. -/
def readsBack (x : Double) (quarters grid : Nat) : Bool :=
  let low := (4 * x.units - x.quartersBelow) * grid
  let high := (4 * x.units + 2 * x.spacing) * grid
  if x.fraction % 2 = 0 then low ≤ quarters && quarters ≤ high else low < quarters && quarters < high

/-- The power of ten of the first significant digit of a positive double. The least positive double
    exceeds `10 ^ -324`. -/
def leadingPlace (x : Double) : Int :=
  (Nat.toDigits 10 (x.units * Nat.pow 10 324 / unitsOfOne)).length - 325

/-- The multiple of `10 ^ place` next to the double that reads back as it, if there is one, and the nearer
    one if there are two. -/
def neighbour? (x : Double) (place : Int) : Option Nat :=
  let grid := Nat.pow 10 (-place).toNat
  let step := unitsOfOne * Nat.pow 10 place.toNat
  let below := x.units * grid / step
  match x.readsBack (4 * below * step) grid, x.readsBack (4 * (below + 1) * step) grid with
  | true, true => some (nearest (x.units * grid) step)
  | true, false => some below
  | false, true => some (below + 1)
  | false, false => none

/-- A count of `10 ^ place` with `n` digits as a decimal; the next power of ten is written with one
    digit. -/
def Decimal.ofCount (n count : Nat) (place : Int) : Decimal :=
  if count = Nat.pow 10 n then ⟨1, place + n⟩ else ⟨count, place⟩

/-- The decimal with the fewest digits that reads back as a positive finite double. -/
def shortest (x : Double) : Decimal :=
  let place (n : Nat) : Int := x.leadingPlace + 1 - n
  let tries := (List.range' 1 16).findSome? fun n =>
    (x.neighbour? (place n)).map (Decimal.ofCount n · (place n))
  tries.getD <|
    Decimal.ofCount 17
      (nearest (x.units * Nat.pow 10 (-place 17).toNat) (unitsOfOne * Nat.pow 10 (place 17).toNat)) (place 17)

/-- How a double is laid out as text: which powers of ten of the first digit are written without an
    exponent, and what stands for the numbers that have no digits. -/
structure Layout where
  positional : Int → Bool
  infinite : String
  notANumber : String

/-- The digits with a point after the first `whole` of them, and zeros where there are none. A whole number
    keeps `.0`. -/
def pointed (digits : String) (whole : Int) : String :=
  let length : Int := digits.length
  if whole ≤ 0 then "0." ++ String.ofList (List.replicate (-whole).toNat '0') ++ digits
  else if length ≤ whole then
    digits ++ String.ofList (List.replicate (whole - length).toNat '0') ++ ".0"
  else String.ofList (digits.toList.take whole.toNat) ++ "." ++
    String.ofList (digits.toList.drop whole.toNat)

/-- The digits with a point after the first of them, unless it is the only one, and a signed exponent. -/
def withExponent (digits : String) (place : Int) : String :=
  let mantissa := match digits.toList with
    | [] => ""
    | [d] => String.ofList [d]
    | d :: more => String.ofList (d :: '.' :: more)
  mantissa ++ "e" ++ (if place < 0 then "-" else "+") ++ toString place.natAbs

/-- The text of the magnitude of a double. -/
def magnitudeText (layout : Layout) (x : Double) : String :=
  if x.isInfinite then layout.infinite
  else if x.units = 0 then "0.0"
  else
    let decimal := x.shortest
    let digits := toString decimal.digits
    let place : Int := decimal.exponent + digits.length - 1
    if layout.positional place then pointed digits (place + 1) else withExponent digits place

/-- The text of a double in a layout. -/
def text (layout : Layout) (x : Double) : String :=
  if x.isNaN then layout.notANumber
  else if x.negative then "-" ++ magnitudeText layout x
  else magnitudeText layout x

end RecordGate.Double
