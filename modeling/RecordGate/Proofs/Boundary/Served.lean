import RecordGate.Boundary.Served
import RecordGate.Proofs.Boundary.Contract
import RecordGate.Proofs.Invocation.Protocol

/-! # Fetching fixed records

A host with fixed records keeps its contract and never exchanges a record, so both fetches of an invocation
succeed and only the records decide what follows. -/

namespace RecordGate
open Record

/-- The calls that fetch a record from a host that serves it whole: there is no fill for an empty record. -/
def servingCalls (snapshot : Snapshot) (record : List UInt8) : List Exchange :=
  .probe snapshot (Int32.ofNat record.length) ::
    if record = [] then [] else [.fill snapshot record.length (Int32.ofNat record.length)]

theorem Served.honest {current previous : List UInt8} (hcurrent : current.length < 0x80000000)
    (hprevious : previous.length < 0x80000000) :
    ({ current, previous } : Served).boundary.Honest
      fun snapshot _ => ({ current, previous } : Served).record snapshot where
  probe snapshot _ := by cases snapshot <;> exact toInt_ofNat ‹_›
  reported snapshot _ _ _ := by cases snapshot <;> exact toInt_ofNat ‹_›
  written _ _ _ _ := rfl

theorem Served.fetched {current previous : List UInt8} (hcurrent : current.length < 0x80000000)
    (hprevious : previous.length < 0x80000000) (snapshot : Snapshot) {record : List UInt8}
    (hrecord : ({ current, previous } : Served).record snapshot = record) :
    Fetched ({ current, previous } : Served).boundary snapshot () (servingCalls snapshot record)
      (.ok record) () := by
  have honest := Served.honest hcurrent hprevious
  unfold servingCalls
  by_cases hempty : record = []
  · subst hempty
    exact honest.fetched_nothing hrecord
  · rw [if_neg hempty]
    exact (honest.fetched_whole hrecord hrecord hempty rfl).choose_spec

/-- The invocation over a host with fixed records: both records are fetched, and the rest follows from
    them. -/
theorem Served.invoke_eq {ρ : Type} {current previous : List UInt8} (hcurrent : current.length < 0x80000000)
    (hprevious : previous.length < 0x80000000) {schema : Schema ρ} {rules : ρ → ρ → Intents}
    {messages : List Message} {outcome : Outcome}
    (h : Concluded schema rules current previous messages outcome) :
    invoke ({ current, previous } : Served).boundary.logged schema rules ⟨[], ()⟩ =
      (outcome, ⟨servingCalls .current current ++ servingCalls .previous previous ++
        (messages ++ outcome.closing).map .sent, ()⟩) := by
  have hfirst := (Served.fetched hcurrent hprevious .current rfl).fetch_logged_eq []
  have hsecond := (Served.fetched hcurrent hprevious .previous rfl).fetch_logged_eq
    ([] ++ servingCalls .current current)
  rw [h.invoke_eq hfirst hsecond, sendAll_logged]
  rfl

end RecordGate
