import RecordGate.Double.Shortest
import RecordGate.Json.Value

/-! # Writing JSON

The compact text of a value: no blanks, members in the order they are held, integers in decimal, doubles by
their shortest digits. Only quotes, backslashes and control characters are escaped, so all other
characters stand for themselves. -/

namespace RecordGate.Json

/-- JSON writes a double positionally when its first digit stands from `10 ^ -5` to `10 ^ 15`. A double
    that is not finite is no JSON number and is written as null. -/
def doubleLayout : Double.Layout where
  positional place := -5 ≤ place && place < 16
  infinite := "null"
  notANumber := "null"

/-- The text of a double as a JSON number. -/
def doubleText (x : Double) : String :=
  if x.Finite then x.text doubleLayout else "null"

/-- A hexadecimal digit, in lower case. -/
def hexDigit (n : Nat) : Char :=
  if n < 10 then Char.ofNat ('0'.toNat + n) else Char.ofNat ('a'.toNat + (n - 10))

/-- How a character is written inside a string. -/
def escaped (c : Char) : List Char :=
  if c = '"' then ['\\', '"']
  else if c = '\\' then ['\\', '\\']
  else if c = '\x08' then ['\\', 'b']
  else if c = '\x0c' then ['\\', 'f']
  else if c = '\n' then ['\\', 'n']
  else if c = '\r' then ['\\', 'r']
  else if c = '\t' then ['\\', 't']
  else if c.toNat < 0x20 then
    ['\\', 'u', '0', '0', hexDigit (c.toNat / 16), hexDigit (c.toNat % 16)]
  else [c]

/-- A text as a JSON string, in quotes. -/
def stringText (text : String) : String :=
  "\"" ++ String.ofList (text.toList.flatMap escaped) ++ "\""

namespace Value

mutual
/-- The compact text of a value. -/
def text : Value → String
  | .null => "null"
  | .bool true => "true"
  | .bool false => "false"
  | .int i => toString i
  | .double x => doubleText x
  | .string s => stringText s
  | .array [] => "[]"
  | .array (item :: rest) => "[" ++ item.text ++ textOfItems rest ++ "]"
  | .object [] => "\x7b\x7d"
  | .object ((key, value) :: rest) =>
    "\x7b" ++ stringText key ++ ":" ++ value.text ++ textOfMembers rest ++ "\x7d"

/-- The items after the first, each behind a comma. -/
def textOfItems : List Value → String
  | [] => ""
  | item :: rest => "," ++ item.text ++ textOfItems rest

/-- The members after the first, each behind a comma. -/
def textOfMembers : List (String × Value) → String
  | [] => ""
  | (key, value) :: rest => "," ++ stringText key ++ ":" ++ value.text ++ textOfMembers rest
end

end RecordGate.Json.Value
