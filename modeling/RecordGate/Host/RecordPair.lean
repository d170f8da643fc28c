import RecordGate.Files
import RecordGate.Host.StageError
import RecordGate.Json.Reader
import RecordGate.Snapshot

/-! # Record pairs

The host holds both versions of a record as compact JSON text. No text for the earlier version means that
the record is new. -/

namespace RecordGate.Host
open Json

/-- The current and the previous version of a record, as JSON texts. -/
structure RecordPair where
  current : String
  previous : String
  deriving DecidableEq

namespace RecordPair

/-- The pair of a record and its earlier version, if there is one. -/
def ofValues (current : Value) (previous : Option Value) : RecordPair :=
  ⟨current.text, (previous.map Value.text).getD ""⟩

/-- The text of a snapshot. -/
def text (pair : RecordPair) : Snapshot → String
  | .current => pair.current
  | .previous => pair.previous

/-- The bytes that are served for a snapshot. -/
def bytes (pair : RecordPair) (snapshot : Snapshot) : List UInt8 :=
  Text.bytes (pair.text snapshot)

/-- Reads a record from a file. -/
def readRecord (files : Files) (path : String) : Except StageError Value :=
  match files path with
  | .error e => .error (.record path ("failed to read: " ++ e.message))
  | .ok bytes => (Json.parse bytes).mapError fun e => .record path ("not JSON: " ++ e.message)

/-- Reads the pair from files, the current version first. -/
def ofFiles (files : Files) (current : String) (previous : Option String) :
    Except StageError RecordPair := do
  let current ← readRecord files current
  match previous with
  | none => return ofValues current none
  | some path => return ofValues current (some (← readRecord files path))

end RecordGate.Host.RecordPair
