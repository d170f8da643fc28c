import RecordGate.Double.Scaling
import RecordGate.Json.Scan

/-! # JSON numbers

A number is scanned into a literal, its sign and the digits of its parts, and the literal has a value: an
integer where it has no fraction, no exponent and fits 64 bits, otherwise a double. A literal that is only
skipped has no value, so its range is not checked; and where the text ends in the middle of a number, a
reader and a skipper name different causes, so the scan takes the cause to name. -/

namespace RecordGate.Json

/-- A number as it is written: digits of the whole part, of the fraction (none where there is no point) and
    of the exponent. -/
structure Literal where
  negative : Bool
  whole : List Nat
  fraction : List Nat
  exponent : Option (Bool × List Nat)

/-- The value of a number. -/
inductive Number where
  | int (i : Int)
  | double (x : Double)
  deriving DecidableEq

/-- A decimal digit. -/
def isDigit (b : UInt8) : Bool :=
  0x30 ≤ b && b ≤ 0x39

/-- The number that a digit stands for. -/
def digitValue (b : UInt8) : Nat :=
  b.toNat - 0x30

/-- The digits that a text starts with. -/
def leadingDigits (text : List UInt8) : List Nat :=
  (text.takeWhile isDigit).map digitValue

/-- The text after the digits it starts with. -/
def afterDigits (text : List UInt8) : List UInt8 :=
  text.dropWhile isDigit

namespace Literal

/-! ### Scanning -/

/-- Scans the whole part. It starts with a zero only if it is zero. -/
def scanWhole (cutOff : Cause) : List UInt8 → Except Fault (List Nat × List UInt8)
  | [] => .error ⟨cutOff, 0⟩
  | b :: rest =>
    if b = 0x30 then
      if (rest.head?.map isDigit).getD false then .error (.lookingAt .invalidNumber rest)
      else .ok ([0], rest)
    else if isDigit b then .ok (leadingDigits (b :: rest), afterDigits rest)
    else .error (.before .invalidNumber rest)

/-- Scans a point and the digits of the fraction, of which there is at least one. -/
def scanFraction (cutOff : Cause) (text : List UInt8) : Except Fault (List Nat × List UInt8) :=
  match text with
  | [] => .ok ([], [])
  | b :: rest =>
    if b ≠ Mark.point then .ok ([], text)
    else match rest, leadingDigits rest with
      | [], _ => .error ⟨cutOff, 0⟩
      | _, [] => .error (.lookingAt .invalidNumber rest)
      | _, digits => .ok (digits, afterDigits rest)

/-- The sign that a text starts with, if any, and the text after it. -/
def scanSign : List UInt8 → Bool × List UInt8
  | [] => (false, [])
  | b :: rest =>
    if b = Mark.minus then (true, rest) else if b = Mark.plus then (false, rest) else (false, b :: rest)

/-- Scans an exponent: its letter, a sign and at least one digit. -/
def scanExponent (cutOff : Cause) (text : List UInt8) :
    Except Fault (Option (Bool × List Nat) × List UInt8) :=
  match text with
  | [] => .ok (none, [])
  | b :: rest =>
    if b ≠ 0x65 ∧ b ≠ 0x45 then .ok (none, text)
    else match scanSign rest with
      | (_, []) => .error ⟨cutOff, 0⟩
      | (negative, d :: rest) =>
        if isDigit d then .ok (some (negative, leadingDigits (d :: rest)), afterDigits rest)
        else .error (.before .invalidNumber rest)

/-- Scans a number after its sign. -/
def scan (cutOff : Cause) (negative : Bool) (text : List UInt8) :
    Except Fault (Literal × List UInt8) := do
  let (whole, rest) ← scanWhole cutOff text
  let (fraction, rest) ← scanFraction cutOff rest
  let (exponent, rest) ← scanExponent cutOff rest
  return (⟨negative, whole, fraction, exponent⟩, rest)

/-! ### The value of a literal -/

/-- Appends digits to a significand while it stays below a limit; the other digits are left over. -/
def absorb (limit significand : Nat) : List Nat → Nat × List Nat
  | [] => (significand, [])
  | d :: digits =>
    let next := significand * 10 + d
    if next < limit then absorb limit next digits else (significand, d :: digits)

/-- An integer of 64 bits, with or without a sign, where the literal has one. Minus zero is no integer. -/
def integer? (literal : Literal) : Option Int :=
  match absorb UInt64.size 0 literal.whole, literal.fraction, literal.exponent with
  | (n, []), [], none =>
    if !literal.negative then some n
    else if 0 < n ∧ n ≤ 0x8000000000000000 then some (-n)
    else none
  | _, _, _ => none

/-- The significand, of at most 64 bits, and its power of ten before the exponent is added: digits of the
    whole part that are left over raise it, digits of the fraction that are not lower it. -/
def significand (literal : Literal) : Nat × Int :=
  let (whole, dropped) := absorb UInt64.size 0 literal.whole
  let (both, unused) := absorb UInt64.size whole literal.fraction
  (both, dropped.length - (literal.fraction.length - unused.length : Int))

/-- The magnitude of the double of a literal, or the number of digits of the exponent that were left when
    it turned out to be too great. An exponent of more than 31 bits is not read to its end. -/
def magnitude (literal : Literal) : Except Nat Double :=
  let (significand, power) := literal.significand
  match literal.exponent with
  | none => (Double.scale? significand power).elim (.error 0) .ok
  | some (negative, digits) =>
    let (exponent, unread) := absorb 0x80000000 0 digits
    if unread ≠ [] then
      if significand ≠ 0 ∧ !negative then .error (unread.length - 1) else .ok .zero
    else
      let power := if negative then power - exponent else power + exponent
      (Double.scale? significand power).elim (.error 0) .ok

/-- The value of a literal that is followed by the given text. -/
def value (literal : Literal) (rest : List UInt8) : Except Fault Number :=
  match literal.integer? with
  | some i => .ok (.int i)
  | none =>
    match literal.magnitude with
    | .ok x => .ok (.double (if literal.negative then x.neg else x))
    | .error unread => .error ⟨.numberOutOfRange, unread + rest.length⟩

end Literal

/-- Reads a number after its sign. -/
def readMagnitude (negative : Bool) (text : List UInt8) : Except Fault (Number × List UInt8) := do
  let (literal, rest) ← Literal.scan .endInValue negative text
  let number ← literal.value rest
  return (number, rest)

/-- Reads a number. -/
def readNumber (text : List UInt8) : Except Fault (Number × List UInt8) :=
  match text with
  | [] => .error ⟨.endInValue, 0⟩
  | b :: rest => if b = Mark.minus then readMagnitude true rest else readMagnitude false text

/-- Skips a number. -/
def skipNumber (text : List UInt8) : Except Fault (List UInt8) :=
  match text with
  | [] => .error ⟨.invalidNumber, 0⟩
  | b :: rest =>
    (Literal.scan .invalidNumber (b = Mark.minus) (if b = Mark.minus then rest else text)).map Prod.snd

/-- The double of a number; an integer is rounded. -/
def Number.toDouble : Number → Double
  | .int i => .ofInt i
  | .double x => x

/-- The number as a value. -/
def Number.toValue : Number → Value
  | .int i => .int i
  | .double x => .double x

/-- The number as something found. -/
def Number.found : Number → Found
  | .int i => .int i
  | .double x => .double x

end RecordGate.Json
