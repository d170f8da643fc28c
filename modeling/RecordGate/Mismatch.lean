import RecordGate.Double.Basic
import RecordGate.Text.Quoted

/-! # Values that are not what was expected

A reader of a document that finds a value of another type, or a number that is out of range, says what it
found and what it expected. How a double is shown is a matter of the format of the document. -/

namespace RecordGate

/-- What was found where something else was expected. -/
inductive Found where
  | null
  | bool (flag : Bool)
  | int (number : Int)
  | double (number : Double)
  | string (text : String)
  | sequence
  | map
  deriving DecidableEq

/-- How a found value is named. -/
def Found.name (doubleText : Double → String) : Found → String
  | .null => "null"
  | .bool true => "boolean `true`"
  | .bool false => "boolean `false`"
  | .int i => "integer `" ++ toString i ++ "`"
  | .double x => "floating point `" ++ doubleText x ++ "`"
  | .string s => "string " ++ Text.quoted s
  | .sequence => "sequence"
  | .map => "map"

/-- A value that does not fit, and the name of what was expected. -/
inductive Mismatch where
  /-- The value has another type. -/
  | type (found : Found) (expected : String)
  /-- The value has the right type and is out of range. -/
  | range (found : Found) (expected : String)
  deriving DecidableEq

/-- The wording of a mismatch. -/
def Mismatch.message (doubleText : Double → String) : Mismatch → String
  | .type found expected => "invalid type: " ++ found.name doubleText ++ ", expected " ++ expected
  | .range found expected => "invalid value: " ++ found.name doubleText ++ ", expected " ++ expected

end RecordGate
