import RecordGate.Boundary.Basic

/-! # A host with fixed records

The host serves two byte strings and takes no notice of messages. The size it reports for a probe or a fill
may be fixed to something else, which shows how a guest takes a host that is wrong. -/

namespace RecordGate

/-- The records of such a host, and the sizes that it is made to report; of several for one snapshot the
    first counts. -/
structure Served where
  current : List UInt8
  previous : List UInt8
  probeSizes : List (Snapshot × Int32) := []
  fillSizes : List (Snapshot × Int32) := []

namespace Served

/-- The bytes of a snapshot. -/
def record (served : Served) : Snapshot → List UInt8
  | .current => served.current
  | .previous => served.previous

/-- The host. A record is written only if the buffer holds all of it. -/
def boundary (served : Served) : Boundary Unit where
  probe snapshot _ :=
    ((served.probeSizes.lookup snapshot).getD (Int32.ofNat (served.record snapshot).length), ())
  fill snapshot room buffer _ :=
    let record := served.record snapshot
    (⟨(served.fillSizes.lookup snapshot).getD (Int32.ofNat record.length),
      if record.length ≤ room then overlay record buffer else buffer⟩, ())
  send _ _ := ()

end RecordGate.Served
