import RecordGate.Json.Reader

/-! # Record schemas

A schema says how a record is read from a JSON text and what stands for a record that is not there. The
schema of a type with fields reads each known key by its own reader, skips unknown ones and leaves fields
that are missing as they are in the blank record. A list of values is read as the fields in order. -/

namespace RecordGate.Record
open Json

/-- How a record of type `ρ` is read. -/
structure Schema (ρ : Type) where
  blank : ρ
  read : List UInt8 → Except Fault (ρ × List UInt8)

/-- How one field is read: the value under its key becomes a change of the record. -/
structure Field (ρ : Type) where
  key : String
  read : List UInt8 → Except Fault ((ρ → ρ) × List UInt8)

/-! ### Field values -/

/-- The fault of a value of the wrong type. A scalar is read first, so that it can be named. -/
def mismatch (expected : String) (text : List UInt8) : Fault :=
  let wrong (found : Found) : Except Fault (List UInt8) → Fault
    | .ok rest => .before (.mismatch (.type found expected)) rest
    | .error fault => fault
  match text with
  | [] => ⟨.endInValue, 0⟩
  | b :: rest =>
    if b = 0x6E then wrong .null (expectWord nullTail rest)
    else if b = 0x74 then wrong (.bool true) (expectWord trueTail rest)
    else if b = 0x66 then wrong (.bool false) (expectWord falseTail rest)
    else if b = Mark.minus ∨ isDigit b then
      match readNumber text with
      | .ok (number, rest) => .before (.mismatch (.type number.found expected)) rest
      | .error fault => fault
    else if b = Mark.quote then
      match readString rest with
      | .ok (s, rest) => .before (.mismatch (.type (.string s) expected)) rest
      | .error fault => fault
    else if b = Mark.openArray then .before (.mismatch (.type .sequence expected)) text
    else if b = Mark.openObject then .before (.mismatch (.type .map expected)) text
    else .lookingAt .expectedValue text

/-- Reads a number where one stands. -/
def readNumberOf (expected : String) (text : List UInt8) : Except Fault (Number × List UInt8) :=
  match skipBlanks text with
  | [] => .error ⟨.endInValue, 0⟩
  | b :: rest =>
    if b = Mark.minus ∨ isDigit b then readNumber (b :: rest) else .error (mismatch expected (b :: rest))

/-- Reads a number as a double; an integer is rounded. -/
def readDouble (text : List UInt8) : Except Fault (Double × List UInt8) :=
  (readNumberOf "f64" text).map fun (number, rest) => (number.toDouble, rest)

/-- Reads an integer of 64 bits with a sign. -/
def readInteger (text : List UInt8) : Except Fault (Int × List UInt8) := do
  let (number, rest) ← readNumberOf "i64" text
  match number with
  | .int i =>
    if i < 0x8000000000000000 then return (i, rest)
    else .error (.before (.mismatch (.range (.int i) "i64")) rest)
  | .double x => .error (.before (.mismatch (.type (.double x) "i64")) rest)

/-- Reads a string. -/
def readText (text : List UInt8) : Except Fault (String × List UInt8) :=
  match skipBlanks text with
  | [] => .error ⟨.endInValue, 0⟩
  | b :: rest =>
    if b = Mark.quote then readString rest else .error (mismatch "a string" (b :: rest))

/-! ### Fields by key -/

/-- The fault of a key that comes twice. The end of the object is taken with it if it follows at once. -/
def repeated (key : String) (text : List UInt8) : Fault :=
  match skipBlanks text with
  | [] => .before (.duplicateField key) []
  | b :: rest => .before (.duplicateField key) (if b = Mark.closeObject then rest else b :: rest)

/-- Reads the members of an object up to its end into a record; `seen` are the known keys read before. -/
def readByKey {ρ : Type} (fields : List (Field ρ)) (steps : Nat) (first : Bool) (seen : List String)
    (record : ρ) (text : List UInt8) : Except Fault (ρ × List UInt8) :=
  match steps with
  | 0 => .error (.before .nestedTooDeep text)
  | steps + 1 => do
    match ← nextKey first text with
    | .close rest => return (record, rest)
    | .entry rest =>
      let (key, rest) ← readString rest
      match fields.find? (·.key == key) with
      | none =>
        let rest ← expectColon rest
        let rest ← skipValue (stepsFor rest) rest
        readByKey fields steps false seen record rest
      | some field =>
        if seen.contains key then .error (repeated key rest)
        else
          let rest ← expectColon rest
          let (change, rest) ← field.read rest
          readByKey fields steps false (key :: seen) (change record) rest

/-! ### Fields by position -/

/-- Reads the items of an array into the fields in order; the array may end early. -/
def readByPosition {ρ : Type} (first : Bool) (record : ρ) (text : List UInt8) :
    List (Field ρ) → Except Fault (ρ × List UInt8)
  | [] => .ok (record, text)
  | field :: fields => do
    match ← nextItem first text with
    | .close _ => return (record, text)
    | .entry rest =>
      let (change, rest) ← field.read rest
      readByPosition false (change record) rest fields

/-- Reads the end of an array of which all fields have been read. -/
def expectArrayEnd (text : List UInt8) : Except Fault (List UInt8) :=
  match skipBlanks text with
  | [] => .error ⟨.endInArray, 0⟩
  | b :: rest =>
    if b = Mark.closeArray then .ok rest
    else if b = Mark.comma then
      let more := skipBlanks rest
      if more.head? = some Mark.closeArray then .error (.lookingAt .trailingComma more)
      else .error (.lookingAt .trailingCharacters more)
    else .error (.lookingAt .trailingCharacters (b :: rest))

/-- The schema of a type with fields. -/
def Schema.ofFields {ρ : Type} (name : String) (blank : ρ) (fields : List (Field ρ)) : Schema ρ where
  blank := blank
  read text :=
    match skipBlanks text with
    | [] => .error ⟨.endInValue, 0⟩
    | b :: rest =>
      if b = Mark.openObject then readByKey fields (stepsFor rest) true [] blank rest
      else if b = Mark.openArray then do
        let (record, rest) ← readByPosition true blank rest fields
        let rest ← expectArrayEnd rest
        return (record, rest)
      else .error (mismatch ("struct " ++ name) (b :: rest))

/-- The schema that takes any JSON value. -/
def Schema.value : Schema Value where
  blank := .null
  read text := readValue (stepsFor text) nestingLimit text

end RecordGate.Record
