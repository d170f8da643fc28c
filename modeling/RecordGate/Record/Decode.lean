import RecordGate.Record.Schema
import RecordGate.Snapshot

/-! # Decoding records

The bytes of a snapshot become a record of the schema. No bytes but blanks, and the JSON text `null`, mean
that there is no record and decode to the blank one; anything else has to fit the schema. -/

namespace RecordGate.Record
open Json

/-- The bytes of a snapshot that do not fit the schema, and what is wrong with them. -/
structure DecodeError where
  snapshot : Snapshot
  error : Json.Error
  deriving DecidableEq

/-- The wording of the error. -/
def DecodeError.message (e : DecodeError) : String :=
  e.snapshot.name ++ " was not a valid record: " ++ e.error.message

/-- Blanks between records: those of JSON and the form feed. -/
def isSpace (b : UInt8) : Bool :=
  isBlank b || b == 0x0C

/-- Reads a record or `null`. -/
def readOptional {ρ : Type} (schema : Schema ρ) (text : List UInt8) : Except Fault (ρ × List UInt8) :=
  match skipBlanks text with
  | [] => schema.read text
  | b :: rest =>
    if b = 0x6E then (expectWord nullTail rest).map (schema.blank, ·) else schema.read text

/-- The record that the bytes of a snapshot hold. -/
def decode {ρ : Type} (schema : Schema ρ) (snapshot : Snapshot) (bytes : List UInt8) :
    Except DecodeError ρ :=
  if bytes.all isSpace then .ok schema.blank
  else (readWhole (readOptional schema) bytes).mapError (⟨snapshot, ·⟩)

/-- Both versions of a record. -/
structure Pair (ρ : Type) where
  current : ρ
  previous : ρ

/-- Decodes both snapshots, the current one first. -/
def decodePair {ρ : Type} (schema : Schema ρ) (current previous : List UInt8) :
    Except DecodeError (Pair ρ) := do
  let current ← decode schema .current current
  let previous ← decode schema .previous previous
  return ⟨current, previous⟩

end RecordGate.Record
