import RecordGate.Json.Number

/-! # Reading and skipping values

`readValue` reads any value, with at most a given number of arrays and objects around each other;
`skipValue` finds the end of one without a limit and without looking into its strings and numbers. Both
take a bound on their steps; twice the length of the text is always enough, since every second step at
least takes a byte. `parse` reads a whole text as one value. -/

namespace RecordGate.Json

/-- The arrays and objects that a text may nest. -/
def nestingLimit : Nat := 127

/-- Steps that suffice for a text. -/
def stepsFor (text : List UInt8) : Nat :=
  2 * text.length + 2

/-- What comes next in a list of items or members. -/
inductive Next where
  /-- The list ends, and this follows it. -/
  | close (rest : List UInt8)
  /-- An item or member starts here. -/
  | entry (text : List UInt8)

/-- Finds the next item of an array, or its end. Items after the first stand behind a comma. -/
def nextItem (first : Bool) (text : List UInt8) : Except Fault Next :=
  match skipBlanks text with
  | [] => .error ⟨.endInArray, 0⟩
  | b :: rest =>
    if b = Mark.closeArray then .ok (.close rest)
    else if first then .ok (.entry (b :: rest))
    else if b = Mark.comma then
      match skipBlanks rest with
      | [] => .error ⟨.endInValue, 0⟩
      | c :: more =>
        if c = Mark.closeArray then .error (.lookingAt .trailingComma (c :: more))
        else .ok (.entry (c :: more))
    else .error (.lookingAt .expectedCommaInArray (b :: rest))

/-- Finds the key of the next member of an object, after its quote, or the end of the object. Members after
    the first stand behind a comma. -/
def nextKey (first : Bool) (text : List UInt8) : Except Fault Next :=
  match skipBlanks text with
  | [] => .error ⟨.endInObject, 0⟩
  | b :: rest =>
    if b = Mark.closeObject then .ok (.close rest)
    else if first then
      if b = Mark.quote then .ok (.entry rest) else .error (.lookingAt .keyNotString (b :: rest))
    else if b = Mark.comma then
      match skipBlanks rest with
      | [] => .error ⟨.endInValue, 0⟩
      | c :: more =>
        if c = Mark.quote then .ok (.entry more)
        else if c = Mark.closeObject then .error (.lookingAt .trailingComma (c :: more))
        else .error (.lookingAt .keyNotString (c :: more))
    else .error (.lookingAt .expectedCommaInObject (b :: rest))

/-- Reads the colon between a key and its value. -/
def expectColon (text : List UInt8) : Except Fault (List UInt8) :=
  match skipBlanks text with
  | [] => .error ⟨.endInObject, 0⟩
  | b :: rest =>
    if b = Mark.colon then .ok rest else .error (.lookingAt .expectedColon (b :: rest))

/-! ### Reading -/

/-- Reads a value that is neither an array nor an object. -/
def readScalar (text : List UInt8) : Except Fault (Value × List UInt8) :=
  match text with
  | [] => .error ⟨.endInValue, 0⟩
  | b :: rest =>
    if b = 0x6E then (expectWord nullTail rest).map (Value.null, ·)
    else if b = 0x74 then (expectWord trueTail rest).map (Value.bool true, ·)
    else if b = 0x66 then (expectWord falseTail rest).map (Value.bool false, ·)
    else if b = Mark.quote then (readString rest).map fun (s, rest) => (Value.string s, rest)
    else if b = Mark.minus ∨ isDigit b then
      (readNumber text).map fun (number, rest) => (number.toValue, rest)
    else .error (.lookingAt .expectedValue text)

mutual
/-- Reads a value that may nest `depth` arrays and objects. -/
def readValue (steps depth : Nat) (text : List UInt8) : Except Fault (Value × List UInt8) :=
  match steps with
  | 0 => .error (.before .nestedTooDeep text)
  | steps + 1 =>
    match skipBlanks text with
    | [] => .error ⟨.endInValue, 0⟩
    | b :: rest =>
      if b = Mark.openArray then
        match depth with
        | 0 => .error (.lookingAt .nestedTooDeep (b :: rest))
        | depth + 1 => do
          let (items, rest) ← readItems steps depth true rest
          return (.array items, rest)
      else if b = Mark.openObject then
        match depth with
        | 0 => .error (.lookingAt .nestedTooDeep (b :: rest))
        | depth + 1 => do
          let (members, rest) ← readMembers steps depth true [] rest
          return (.object members, rest)
      else readScalar (b :: rest)

/-- Reads the items of an array up to its end. -/
def readItems (steps depth : Nat) (first : Bool) (text : List UInt8) :
    Except Fault (List Value × List UInt8) :=
  match steps with
  | 0 => .error (.before .nestedTooDeep text)
  | steps + 1 => do
    match ← nextItem first text with
    | .close rest => return ([], rest)
    | .entry rest =>
      let (item, rest) ← readValue steps depth rest
      let (items, rest) ← readItems steps depth false rest
      return (item :: items, rest)

/-- Reads the members of an object up to its end and adds them to those read before. -/
def readMembers (steps depth : Nat) (first : Bool) (members : List (String × Value))
    (text : List UInt8) : Except Fault (List (String × Value) × List UInt8) :=
  match steps with
  | 0 => .error (.before .nestedTooDeep text)
  | steps + 1 => do
    match ← nextKey first text with
    | .close rest => return (members, rest)
    | .entry rest =>
      let (key, rest) ← readString rest
      let rest ← expectColon rest
      let (value, rest) ← readValue steps depth rest
      readMembers steps depth false (insertMember key value members) rest
end

/-! ### Skipping -/

/-- Skips a value that is neither an array nor an object. -/
def skipScalar (text : List UInt8) : Except Fault (List UInt8) :=
  match text with
  | [] => .error ⟨.endInValue, 0⟩
  | b :: rest =>
    if b = 0x6E then expectWord nullTail rest
    else if b = 0x74 then expectWord trueTail rest
    else if b = 0x66 then expectWord falseTail rest
    else if b = Mark.quote then skipString rest
    else if b = Mark.minus ∨ isDigit b then skipNumber text
    else .error (.lookingAt .expectedValue text)

/-- What comes after an item or member that was skipped: the end of the list, or the text behind a
    comma. -/
def nextSkipped (close : UInt8) (cutOff expected : Cause) (text : List UInt8) : Except Fault Next :=
  match skipBlanks text with
  | [] => .error ⟨cutOff, 0⟩
  | b :: rest =>
    if b = Mark.comma then .ok (.entry rest)
    else if b = close then .ok (.close rest)
    else .error (.lookingAt expected (b :: rest))

/-- Skips a key up to the value of its member. -/
def skipKey (text : List UInt8) : Except Fault (List UInt8) :=
  match skipBlanks text with
  | [] => .error ⟨.endInObject, 0⟩
  | b :: rest =>
    if b = Mark.quote then do
      let rest ← skipString rest
      expectColon rest
    else .error (.lookingAt .keyNotString (b :: rest))

mutual
/-- Skips a value. -/
def skipValue (steps : Nat) (text : List UInt8) : Except Fault (List UInt8) :=
  match steps with
  | 0 => .error (.before .nestedTooDeep text)
  | steps + 1 =>
    match skipBlanks text with
    | [] => .error ⟨.endInValue, 0⟩
    | b :: rest =>
      if b = Mark.openArray then
        match skipBlanks rest with
        | [] => .error ⟨.endInArray, 0⟩
        | c :: more => if c = Mark.closeArray then .ok more else skipItems steps (c :: more)
      else if b = Mark.openObject then
        match skipBlanks rest with
        | [] => .error ⟨.endInObject, 0⟩
        | c :: more => if c = Mark.closeObject then .ok more else skipMembers steps (c :: more)
      else skipScalar (b :: rest)

/-- Skips the items of an array, of which there is at least one more, and the end of the array. -/
def skipItems (steps : Nat) (text : List UInt8) : Except Fault (List UInt8) :=
  match steps with
  | 0 => .error (.before .nestedTooDeep text)
  | steps + 1 => do
    let rest ← skipValue steps text
    match ← nextSkipped Mark.closeArray .endInArray .expectedCommaInArray rest with
    | .close rest => return rest
    | .entry rest => skipItems steps rest

/-- Skips the members of an object, of which there is at least one more, and the end of the object. -/
def skipMembers (steps : Nat) (text : List UInt8) : Except Fault (List UInt8) :=
  match steps with
  | 0 => .error (.before .nestedTooDeep text)
  | steps + 1 => do
    let rest ← skipKey text
    let rest ← skipValue steps rest
    match ← nextSkipped Mark.closeObject .endInObject .expectedCommaInObject rest with
    | .close rest => return rest
    | .entry rest => skipMembers steps rest
end

/-! ### Whole texts -/

/-- Only blanks may follow the value of a text. -/
def expectEnd (text : List UInt8) : Except Fault Unit :=
  match skipBlanks text with
  | [] => .ok ()
  | b :: rest => .error (.lookingAt .trailingCharacters (b :: rest))

/-- Runs a reader over a whole text; a fault is given its place in it. -/
def readWhole {α : Type} (read : List UInt8 → Except Fault (α × List UInt8)) (text : List UInt8) :
    Except Error α :=
  let result := do
    let (value, rest) ← read text
    expectEnd rest
    return value
  result.mapError (·.locate text)

/-- The value that a text writes. -/
def parse (text : List UInt8) : Except Error Value :=
  readWhole (readValue (stepsFor text) nestingLimit) text

end RecordGate.Json
