import RecordGate.Json.Printer
import RecordGate.Mismatch

/-! # What can be wrong with a JSON text

A reader that stops knows the cause and how many bytes were left when it stopped; that is a `Fault`. Seen
against the whole text the bytes left become a line and a column, and the fault becomes an `Error`, which
is what people read. A byte that was only looked at counts as read. -/

namespace RecordGate.Json

/-- Why a text is refused. -/
inductive Cause where
  | endInValue
  | endInString
  | endInArray
  | endInObject
  | expectedValue
  | expectedWord
  | expectedColon
  | expectedCommaInArray
  | expectedCommaInObject
  | keyNotString
  | trailingComma
  | trailingCharacters
  | invalidNumber
  | numberOutOfRange
  | controlCharacter
  | invalidEscape
  | endOfSurrogates
  | loneSurrogate
  | invalidText
  | nestedTooDeep
  | duplicateField (key : String)
  | mismatch (what : Mismatch)
  deriving DecidableEq

/-- The wording of a cause. -/
def Cause.message : Cause → String
  | .endInValue => "EOF while parsing a value"
  | .endInString => "EOF while parsing a string"
  | .endInArray => "EOF while parsing a list"
  | .endInObject => "EOF while parsing an object"
  | .expectedValue => "expected value"
  | .expectedWord => "expected ident"
  | .expectedColon => "expected `:`"
  | .expectedCommaInArray => "expected `,` or `]`"
  | .expectedCommaInObject => "expected `,` or `\x7d`"
  | .keyNotString => "key must be a string"
  | .trailingComma => "trailing comma"
  | .trailingCharacters => "trailing characters"
  | .invalidNumber => "invalid number"
  | .numberOutOfRange => "number out of range"
  | .controlCharacter => "control character (\\u0000-\\u001F) found while parsing a string"
  | .invalidEscape => "invalid escape"
  | .endOfSurrogates => "unexpected end of hex escape"
  | .loneSurrogate => "lone leading surrogate in hex escape"
  | .invalidText => "invalid unicode code point"
  | .nestedTooDeep => "recursion limit exceeded"
  | .duplicateField key => "duplicate field `" ++ key ++ "`"
  | .mismatch what => what.message doubleText

/-- A cause, and the number of bytes that had not been read. -/
structure Fault where
  cause : Cause
  left : Nat
  deriving DecidableEq

/-- The fault of stopping in front of the rest of a text, with all before it read. -/
def Fault.before (cause : Cause) (rest : List UInt8) : Fault :=
  ⟨cause, rest.length⟩

/-- The fault of looking at the first byte of the rest of a text; at the end there is none to look at. -/
def Fault.lookingAt (cause : Cause) (rest : List UInt8) : Fault :=
  ⟨cause, rest.length - 1⟩

/-- A cause with its place in the text: the line, counted from one, and the bytes read on that line. -/
structure Error where
  cause : Cause
  line : Nat
  column : Nat
  deriving DecidableEq

/-- The byte that ends a line. -/
def lineFeed : UInt8 := 0x0A

/-- The place of a fault in the whole text. -/
def Fault.locate (fault : Fault) (text : List UInt8) : Error :=
  let read := text.take (text.length - fault.left)
  ⟨fault.cause, read.count lineFeed + 1, (read.reverse.takeWhile (· != lineFeed)).length⟩

/-- The wording of an error. -/
def Error.message (e : Error) : String :=
  e.cause.message ++ " at line " ++ toString e.line ++ " column " ++ toString e.column

end RecordGate.Json
