import RecordGate.Intent
import RecordGate.Record.Decode
import RecordGate.Transfer.Basic

/-! # Invocations

One invocation fetches both snapshots, decodes them, applies the rules and replays their intents, one
message each. Where something fails the invocation is aborted with the reason, which is also the last thing
that the host is told. -/

namespace RecordGate
open Record

variable {σ : Type}

/-- Replays one intent. -/
def Intent.send (boundary : Boundary σ) (s : σ) : Intent → Except TransferError Unit × σ
  | .reportError field message => (.ok (), boundary.send (.error field message) s)
  | .reportWarning field message => (.ok (), boundary.send (.warn field message) s)
  | .setRequired field required => (.ok (), boundary.send (.setRequired field (flagNumber required)) s)
  | .setDisplay field display => (.ok (), boundary.send (.setDisplay field (flagNumber display)) s)
  | .setValue field value => sendValue boundary field (.json value) s
  | .diagnostic text => (.ok (), boundary.send (.diagnostic text) s)

/-- Replays intents in order, up to the first that cannot be sent, and counts the errors among them. -/
def report (boundary : Boundary σ) : List Intent → σ → Except TransferError Nat × σ
  | [], s => (.ok 0, s)
  | intent :: rest, s =>
    match intent.send boundary s with
    | (.error error, s) => (.error error, s)
    | (.ok (), s) =>
      let (count, s) := report boundary rest s
      (count.map (· + if intent.isError then 1 else 0), s)

/-- Why an invocation was aborted. -/
inductive AbortReason where
  | transfer (error : TransferError)
  | decode (error : DecodeError)
  deriving DecidableEq

/-- The wording of the reason. -/
def AbortReason.message : AbortReason → String
  | .transfer error => error.message
  | .decode error => error.message

/-- How an invocation ended. -/
inductive Outcome where
  /-- All intents were replayed; so many of them were errors. -/
  | completed (errors : Nat)
  | aborted (reason : AbortReason)
  deriving DecidableEq

/-- Whether the record passed: all intents were replayed and none was an error. -/
def Outcome.passed : Outcome → Bool
  | .completed errors => errors == 0
  | .aborted _ => false

/-- Whether the invocation was aborted. -/
def Outcome.isAborted : Outcome → Bool
  | .completed _ => false
  | .aborted _ => true

/-- Fetches, decodes, applies the rules and replays. -/
def attempt {ρ : Type} (boundary : Boundary σ) (schema : Schema ρ) (rules : ρ → ρ → Intents) (s : σ) :
    Except AbortReason Nat × σ :=
  match fetch boundary .current s with
  | (.error error, s) => (.error (.transfer error), s)
  | (.ok current, s) =>
    match fetch boundary .previous s with
    | (.error error, s) => (.error (.transfer error), s)
    | (.ok previous, s) =>
      match decodePair schema current previous with
      | .error error => (.error (.decode error), s)
      | .ok records =>
        let (count, s) := report boundary (rules records.current records.previous).entries s
        (count.mapError .transfer, s)

/-- Runs an invocation; the reason of an abort is sent as a diagnostic. -/
def invoke {ρ : Type} (boundary : Boundary σ) (schema : Schema ρ) (rules : ρ → ρ → Intents) (s : σ) :
    Outcome × σ :=
  match attempt boundary schema rules s with
  | (.ok errors, s) => (.completed errors, s)
  | (.error reason, s) => (.aborted reason, boundary.send (.diagnostic reason.message) s)

end RecordGate
