import RecordGate.Json.Printer

/-! # Data to be sent

What a guest hands over as the value of a field may be richer than JSON: numbers of any size, doubles that
are not finite, keys that are not text. `encode` makes a JSON value of it or says what cannot be one. -/

namespace RecordGate
open Json

/-- A key of a map. -/
inductive Key where
  | text (text : String)
  | int (number : Int)
  | double (number : Double)
  /-- Any other key, which no JSON object can have. -/
  | other
  deriving DecidableEq

/-- Something to be sent as a value. -/
inductive Datum where
  | json (value : Value)
  /-- Nothing: what has no content, or content that is not there. -/
  | absent
  | bool (flag : Bool)
  | int (number : Int)
  | double (number : Double)
  | text (text : String)
  /-- Something inside a type that is not seen from outside. -/
  | wrapped (inner : Datum)
  /-- Something under the name of the case it belongs to. -/
  | tagged (tag : String) (inner : Datum)
  | list (items : List Datum)
  | map (entries : List (Key × Datum))
  /-- Something that refuses to be written, and what it says. -/
  | refusing (reason : String)

/-- Why there is no JSON value for a datum. -/
inductive EncodeError where
  | numberOutOfRange
  | keyNotText
  | keyNotFinite
  | refused (reason : String)
  deriving DecidableEq

/-- The wording of the error. -/
def EncodeError.message : EncodeError → String
  | .numberOutOfRange => "number out of range"
  | .keyNotText => "key must be a string"
  | .keyNotFinite => "float key must be finite (got NaN or +/-inf)"
  | .refused reason => reason

/-- The text of a key. -/
def Key.encode : Key → Except EncodeError String
  | .text s => .ok s
  | .int i => .ok (toString i)
  | .double x => if x.Finite then .ok (doubleText x) else .error .keyNotFinite
  | .other => .error .keyNotText

namespace Datum

mutual
/-- The JSON value of a datum. A double that is not finite becomes null. -/
def encode : Datum → Except EncodeError Value
  | .json v => .ok v
  | .absent => .ok .null
  | .bool flag => .ok (.bool flag)
  | .int i => if IntegerInRange i then .ok (.int i) else .error .numberOutOfRange
  | .double x => .ok (if x.Finite then .double x else .null)
  | .text s => .ok (.string s)
  | .wrapped inner => inner.encode
  | .tagged tag inner => do return .object [(tag, ← inner.encode)]
  | .list items => do return .array (← encodeItems items)
  | .map entries => do return .object (← encodeEntries entries [])
  | .refusing reason => .error (.refused reason)

/-- The values of items, in order. -/
def encodeItems : List Datum → Except EncodeError (List Value)
  | [] => .ok []
  | item :: rest => do
    let value ← item.encode
    return value :: (← encodeItems rest)

/-- Adds entries to the members of an object. -/
def encodeEntries : List (Key × Datum) → List (String × Value) →
    Except EncodeError (List (String × Value))
  | [], members => .ok members
  | (key, datum) :: rest, members => do
    let key ← key.encode
    let value ← datum.encode
    encodeEntries rest (insertMember key value members)
end

end RecordGate.Datum
