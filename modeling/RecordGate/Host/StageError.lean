/-! # Errors around a run

A run has stages before it: the records are read, the module is loaded, instantiated, and its entry is
found. A stage that fails ends the program with an exit code of its own. -/

namespace RecordGate.Host

/-- Why there was no run. -/
inductive StageError where
  /-- A record file cannot be read or is not JSON. -/
  | record (path message : String)
  /-- The module cannot be read or compiled. -/
  | load (message : String)
  /-- The module cannot be instantiated. -/
  | instantiate (message : String)
  /-- The module has no entry. -/
  | missingEntry (message : String)
  /-- The engine failed. -/
  | engine (message : String)
  deriving DecidableEq

/-- The wording of the error. -/
def StageError.message : StageError → String
  | .record path message => "Record error in '" ++ path ++ "': " ++ message
  | .load message => "Failed to load module: " ++ message
  | .instantiate message => "Failed to instantiate module: " ++ message
  | .missingEntry message => "Failed to get `validate` function from module: " ++ message
  | .engine message => "Runtime error: " ++ message

/-- The exit code of the program after the error. -/
def StageError.exitCode : StageError → Nat
  | .record _ _ => 1
  | .load _ => 2
  | .instantiate _ => 3
  | .missingEntry _ => 4
  | .engine _ => 5

end RecordGate.Host
