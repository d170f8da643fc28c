import RecordGate.Boundary.Basic
import RecordGate.Text.Utf8
import RecordGate.Transfer.Datum

/-! # Transfers

What a guest does over its boundary: it fetches a snapshot in two calls, the second into a buffer of exactly
the size that the first announced, and it sends the value of a field as JSON, if that is a scalar. A fetch
that succeeds gives what the host wrote; one whose second call reports another size is an error. -/

namespace RecordGate
open Json

/-- Why a transfer failed. -/
inductive TransferError where
  | invalidSize (snapshot : Snapshot) (size : Int32)
  | sizeMismatch (snapshot : Snapshot) (expected : Nat) (actual : Int32)
  | encode (field : String) (error : EncodeError)
  | notScalar (field : String)
  deriving DecidableEq

/-- The wording of the error. -/
def TransferError.message : TransferError → String
  | .invalidSize snapshot size =>
    snapshot.name ++ " reported an invalid size of " ++ toString size.toInt
  | .sizeMismatch snapshot expected actual =>
    snapshot.name ++ " announced " ++ toString expected ++ " bytes but reported " ++
      toString actual.toInt ++ " on fill"
  | .encode field error => "failed to encode value for " ++ field ++ ": " ++ error.message
  | .notScalar field => "value for " ++ field ++ " is not a scalar"

/-- A flag as the number that the host expects. -/
def flagNumber (flag : Bool) : Int32 :=
  if flag then 1 else 0

variable {σ : Type}

/-- Fetches a snapshot: probes for its size and fills a buffer of that size, unless there is nothing. -/
def fetch (boundary : Boundary σ) (snapshot : Snapshot) (s : σ) :
    Except TransferError (List UInt8) × σ :=
  let (size, s) := boundary.probe snapshot s
  if size < 0 then (.error (.invalidSize snapshot size), s)
  else
    let expected := size.toInt.toNat
    if expected = 0 then (.ok [], s)
    else
      let (filled, s) := boundary.fill snapshot expected (fun _ => 0) s
      if filled.reported = size then (.ok (bufferBytes expected filled.byte), s)
      else (.error (.sizeMismatch snapshot expected filled.reported), s)

/-- The bytes that carry the value of a field: the JSON text of a scalar. -/
def payload (field : String) (datum : Datum) : Except TransferError (List UInt8) :=
  match datum.encode with
  | .error error => .error (.encode field error)
  | .ok value => if value.isComposite then .error (.notScalar field) else .ok (Text.bytes value.text)

/-- Sends the value of a field. A null clears the field. -/
def sendValue (boundary : Boundary σ) (field : String) (datum : Datum) (s : σ) :
    Except TransferError Unit × σ :=
  match payload field datum with
  | .error error => (.error error, s)
  | .ok bytes => (.ok (), boundary.send (.set field bytes) s)

end RecordGate
