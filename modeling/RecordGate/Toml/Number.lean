import RecordGate.Double.Rounding
import RecordGate.Toml.Quoted

/-! # Numbers

Integers have 64 bits with a sign; all but decimal ones are written without it, after their base. Doubles
have a fraction or an exponent, or are one of the words for infinity and for what is not a number. Between
two digits an underscore may stand. -/

namespace RecordGate.Toml

/-- Reads further digits of a number in a base. -/
def moreDigits (base : Nat) : List Char → List Nat × List Char
  | '_' :: c :: rest =>
    match digit? base c with
    | some d => let (more, rest) := moreDigits base rest; (d :: more, rest)
    | none => ([], '_' :: c :: rest)
  | c :: rest =>
    match digit? base c with
    | some d => let (more, rest) := moreDigits base rest; (d :: more, rest)
    | none => ([], c :: rest)
  | [] => ([], [])

/-- Reads the digits of a number in a base, at least one. -/
def readDigits (base : Nat) : List Char → Option (List Nat × List Char)
  | [] => none
  | c :: rest => do
    let d ← digit? base c
    let (more, rest) := moreDigits base rest
    return (d :: more, rest)

/-- Whether a text starts with a minus, and the text after its sign if it has one. -/
def readSign : List Char → Bool × List Char
  | '-' :: rest => (true, rest)
  | '+' :: rest => (false, rest)
  | text => (false, text)

/-- Reads the whole part of a decimal number. It starts with a zero only if it is zero. -/
def readWhole : List Char → Option (List Nat × List Char)
  | '0' :: rest => some ([0], rest)
  | text => readDigits 10 text

/-- Reads an integer. -/
def readInteger (text : List Char) : Option (Int × List Char) := do
  let (negative, digits, rest) ←
    match text with
    | '0' :: 'x' :: rest => natural 16 (readDigits 16 rest)
    | '0' :: 'o' :: rest => natural 8 (readDigits 8 rest)
    | '0' :: 'b' :: rest => natural 2 (readDigits 2 rest)
    | _ =>
      let (negative, rest) := readSign text
      (natural 10 (readWhole rest)).map fun (_, read) => (negative, read)
  let number : Int := if negative then -digits else digits
  if -0x8000000000000000 ≤ number ∧ number < 0x8000000000000000 then return (number, rest) else none
where
  /-- The number of the digits read in a base, without a sign. -/
  natural (base : Nat) (read : Option (List Nat × List Char)) : Option (Bool × Nat × List Char) :=
    read.map fun (digits, rest) => (false, numeral base digits, rest)

/-- Reads a point and the digits of a fraction. -/
def readFraction : List Char → Option (List Nat × List Char)
  | '.' :: rest => readDigits 10 rest
  | _ => none

/-- Reads the letter of an exponent and the exponent. -/
def readExponent : List Char → Option (Int × List Char)
  | [] => none
  | c :: rest =>
    if c = 'e' ∨ c = 'E' then do
      let (negative, rest) := readSign rest
      let (digits, rest) ← readDigits 10 rest
      let exponent := numeral 10 digits
      return (if negative then -exponent else exponent, rest)
    else none

/-- Reads a double in digits. The nearest one is taken, but a positive number that is too great for a
    double is refused. -/
def readDecimal (text : List Char) : Option (Double × List Char) := do
  let (negative, rest) := readSign text
  let (whole, rest) ← readWhole rest
  let (fraction, exponent, rest) ←
    match readFraction rest with
    | none => (readExponent rest).map fun (exponent, rest) => ([], exponent, rest)
    | some (fraction, rest) =>
      match readExponent rest with
      | none => some (fraction, 0, rest)
      | some (exponent, rest) => some (fraction, exponent, rest)
  let x := Double.ofDecimal negative (numeral 10 (whole ++ fraction)) (exponent - fraction.length)
  if x.isInfinite && !negative then none else return (x, rest)

/-- Reads the word for infinity or for what is not a number. -/
def readSpecial (text : List Char) : Option (Double × List Char) :=
  let (negative, rest) := readSign text
  match rest with
  | 'i' :: 'n' :: 'f' :: rest => some (.ofMagnitudeBits negative Double.infinityBits, rest)
  | 'n' :: 'a' :: 'n' :: rest => some (.ofMagnitudeBits negative Double.nanBits, rest)
  | _ => none

/-- Reads a double. -/
def readDouble (text : List Char) : Option (Double × List Char) :=
  readDecimal text <|> readSpecial text

end RecordGate.Toml
