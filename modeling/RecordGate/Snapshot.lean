/-! # Snapshots of a record -/

namespace RecordGate

/-- Which version of the record is meant: the one being saved, or the one saved before. -/
inductive Snapshot where
  | current
  | previous
  deriving DecidableEq

/-- The name under which the host serves the snapshot. -/
def Snapshot.name : Snapshot → String
  | .current => "data"
  | .previous => "previous_data"

end RecordGate
