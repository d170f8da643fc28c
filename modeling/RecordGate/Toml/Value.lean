import RecordGate.Double.Shortest
import RecordGate.Mismatch

/-! # TOML values

What a TOML document says: tables of values, with the keys in the order in which they were entered. -/

namespace RecordGate.Toml

/-- A value. -/
inductive Value where
  | string (text : String)
  | int (number : Int)
  | double (number : Double)
  | bool (flag : Bool)
  /-- A date, a time of day or both, as written. -/
  | moment (text : String)
  | array (items : List Value)
  | table (entries : List (String × Value))

/-- A double is shown with all its digits and a point. -/
def doubleLayout : Double.Layout where
  positional _ := true
  infinite := "inf"
  notANumber := "NaN"

/-- The text of a double. -/
def doubleText (x : Double) : String :=
  x.text doubleLayout

/-- The value as something found. A moment counts as a map, that of its parts. -/
def Value.found : Value → Found
  | .string text => .string text
  | .int number => .int number
  | .double number => .double number
  | .bool flag => .bool flag
  | .moment _ => .map
  | .array _ => .sequence
  | .table _ => .map

/-- What is said of a document that is refused. The wording is not fixed here, as the places in a document are not
kept when it is read. -/
structure Comments where
  /-- What is said of a document that is no TOML. -/
  broken : String → String
  /-- What stands in front of the wording of a mismatch in a document: the place, and the line there. -/
  place : String → Mismatch → String

end RecordGate.Toml
