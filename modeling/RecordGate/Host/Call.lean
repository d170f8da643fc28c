import RecordGate.Json.Printer

/-! # Calls, reports and executions

What the host keeps of a run: each call of the module that it accepted, in order, and how the run ended. A
record passes if the run completed and no call was an error. -/

namespace RecordGate.Host
open Json

/-- A call of the module as the host received it. -/
inductive HostCall where
  | diagnostic (text : String)
  | error (field message : String)
  | warn (field message : String)
  | setRequired (field : String) (required : Bool)
  | setDisplay (field : String) (display : Bool)
  | set (field : String) (value : Value)

namespace HostCall

/-- Whether the call reports an error. -/
def isError : HostCall → Bool
  | .error _ _ => true
  | _ => false

/-- Whether the call is a note to the operator. -/
def isDiagnostic : HostCall → Bool
  | .diagnostic _ => true
  | _ => false

/-- The field and message of an error. -/
def error? : HostCall → Option (String × String)
  | .error field message => some (field, message)
  | _ => none

/-- The text of a diagnostic. -/
def diagnostic? : HostCall → Option String
  | .diagnostic text => some text
  | _ => none

/-- How the call is shown. -/
def shown : HostCall → String
  | .diagnostic text => "ℹ️  " ++ text
  | .error field message => "❗️ " ++ field ++ ": " ++ message
  | .warn field message => "⚠️  " ++ field ++ ": " ++ message
  | .setRequired field required =>
    "💬 " ++ field ++ " is " ++ (if required then "required" else "not required")
  | .setDisplay field display =>
    "💬 " ++ field ++ " is " ++ (if display then "visible" else "not visible")
  | .set field value => "✏️  " ++ field ++ " set to " ++ value.text

/-- The call as a JSON object that starts with its kind. -/
def toValue : HostCall → Value
  | .diagnostic text => .object [("call", .string "diagnostic"), ("text", .string text)]
  | .error field message => .object
      [("call", .string "error"), ("field", .string field), ("message", .string message)]
  | .warn field message => .object
      [("call", .string "warn"), ("field", .string field), ("message", .string message)]
  | .setRequired field required => .object
      [("call", .string "set_required"), ("field", .string field), ("required", .bool required)]
  | .setDisplay field display => .object
      [("call", .string "set_display"), ("field", .string field), ("display", .bool display)]
  | .set field value => .object
      [("call", .string "set"), ("field", .string field), ("value", value)]

end HostCall

/-- All calls of a run, in order. -/
structure Report where
  calls : List HostCall

namespace Report

/-- No call reports an error. -/
def passed (report : Report) : Bool :=
  !report.calls.any HostCall.isError

/-- The fields and messages of all errors. -/
def errors (report : Report) : List (String × String) :=
  report.calls.filterMap HostCall.error?

/-- The texts of all diagnostics. -/
def diagnostics (report : Report) : List String :=
  report.calls.filterMap HostCall.diagnostic?

/-- The report as a JSON object. -/
def toValue (report : Report) : Value :=
  .object [("calls", .array (report.calls.map HostCall.toValue))]

end Report

/-- How a run ended. -/
inductive Status where
  | completed
  | aborted (reason : String)
  deriving DecidableEq

/-- The status as a JSON object. -/
def Status.toValue : Status → Value
  | .completed => .object [("status", .string "completed")]
  | .aborted reason => .object [("status", .string "aborted"), ("reason", .string reason)]

/-- A run that took place: how it ended, what was reported, and the fuel it used. -/
structure Execution where
  status : Status
  report : Report
  fuelConsumed : Nat

namespace Execution

/-- Whether the run was aborted. -/
def isAborted (execution : Execution) : Bool :=
  match execution.status with
  | .completed => false
  | .aborted _ => true

/-- The run completed and reported no error. -/
def passed (execution : Execution) : Bool :=
  !execution.isAborted && execution.report.passed

/-- The execution as a JSON object. -/
def toValue (execution : Execution) : Value :=
  .object [("status", execution.status.toValue), ("report", execution.report.toValue),
    ("fuel_consumed", .int execution.fuelConsumed)]

/-- The last line about a run: its verdict. -/
def verdict (execution : Execution) : String :=
  match execution.status with
  | .aborted reason => "💥 Validation aborted: " ++ reason
  | .completed =>
    if execution.report.passed then "✅ Validation passed"
    else "❌ Validation failed with " ++ toString execution.report.errors.length ++ " error(s)"

/-- What is printed about a run: each call, but no diagnostics unless they are asked for, and the
    verdict, each behind the last and ended by a line feed. -/
def shown (execution : Execution) (verbosity : Nat) : String :=
  let calls := execution.report.calls.filter fun call => !call.isDiagnostic || 0 < verbosity
  String.join ((calls.map HostCall.shown ++ [execution.verdict]).map (· ++ "\n"))

end RecordGate.Host.Execution
