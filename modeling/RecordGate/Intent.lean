import RecordGate.Json.Printer

/-! # Intents

Rules never talk to the host. They append intents to a list, one atomic message each, and the list is
replayed in order afterwards. Several methods append more than one intent: a governed field has its whole
presentation restated by `control`. -/

namespace RecordGate
open Json

/-- One message that rules want to send. A null value clears the field. -/
inductive Intent where
  | reportError (field message : String)
  | reportWarning (field message : String)
  | setRequired (field : String) (required : Bool)
  | setDisplay (field : String) (display : Bool)
  | setValue (field : String) (value : Value)
  | diagnostic (text : String)

namespace Intent

/-- The field that the intent is about, if it is about one. -/
def field? : Intent → Option String
  | .reportError field _ | .reportWarning field _ | .setRequired field _ | .setDisplay field _
  | .setValue field _ => some field
  | .diagnostic _ => none

/-- Whether the intent reports an error. -/
def isError : Intent → Bool
  | .reportError _ _ => true
  | _ => false

/-- The intent as a JSON object that starts with its type. -/
def toValue : Intent → Value
  | .reportError field message => .object
      [("type", .string "report_error"), ("field", .string field), ("message", .string message)]
  | .reportWarning field message => .object
      [("type", .string "report_warning"), ("field", .string field), ("message", .string message)]
  | .setRequired field required => .object
      [("type", .string "set_required"), ("field", .string field), ("required", .bool required)]
  | .setDisplay field display => .object
      [("type", .string "set_display"), ("field", .string field), ("display", .bool display)]
  | .setValue field value => .object
      [("type", .string "set_value"), ("field", .string field), ("value", value)]
  | .diagnostic text => .object [("type", .string "diagnostic"), ("text", .string text)]

end Intent

/-- What is to happen to the value of a governed field. -/
inductive ValueControl where
  /-- The value stays what it is. -/
  | keep
  /-- The value becomes null. -/
  | clear
  /-- The value becomes this one. -/
  | set (value : Value)

/-- The whole presentation of a governed field. -/
structure FieldControl where
  required : Bool
  display : Bool
  value : ValueControl

namespace FieldControl

/-- Required and visible, the value left alone. -/
def mandatory : FieldControl := ⟨true, true, .keep⟩

/-- Optional and visible, the value left alone. -/
def optional : FieldControl := ⟨false, true, .keep⟩

/-- Optional, hidden and cleared. -/
def notApplicable : FieldControl := ⟨false, false, .clear⟩

end FieldControl

/-- An ordered list of intents that only grows at its end. -/
structure Intents where
  entries : List Intent

namespace Intents

/-- No intents. -/
def empty : Intents := ⟨[]⟩

/-- Appends an intent. -/
def push (intents : Intents) (intent : Intent) : Intents :=
  ⟨intents.entries ++ [intent]⟩

/-- Reports that a field is wrong. -/
def error (intents : Intents) (field message : String) : Intents :=
  intents.push (.reportError field message)

/-- Reports that a field looks wrong. -/
def warning (intents : Intents) (field message : String) : Intents :=
  intents.push (.reportWarning field message)

/-- States whether a field is required. -/
def required (intents : Intents) (field : String) (required : Bool) : Intents :=
  intents.push (.setRequired field required)

/-- States whether a field is visible. -/
def display (intents : Intents) (field : String) (display : Bool) : Intents :=
  intents.push (.setDisplay field display)

/-- Overwrites the value of a field. -/
def set (intents : Intents) (field : String) (value : Value) : Intents :=
  intents.push (.setValue field value)

/-- Clears the value of a field. -/
def clear (intents : Intents) (field : String) : Intents :=
  intents.set field .null

/-- Leaves a note to the operator. -/
def diagnostic (intents : Intents) (text : String) : Intents :=
  intents.push (.diagnostic text)

/-- Restates the whole presentation of a field: required, then display, then the value unless it is
    kept. -/
def control (intents : Intents) (field : String) (control : FieldControl) : Intents :=
  let shown := (intents.required field control.required).display field control.display
  match control.value with
  | .keep => shown
  | .clear => shown.clear field
  | .set value => shown.set field value

/-- How many errors are reported. -/
def errorCount (intents : Intents) : Nat :=
  intents.entries.countP Intent.isError

/-- The list as a JSON array. -/
def toValue (intents : Intents) : Value :=
  .array (intents.entries.map Intent.toValue)

end Intents

/-- One use of the methods that append intents. -/
inductive IntentStep where
  | error (field message : String)
  | warning (field message : String)
  | required (field : String) (flag : Bool)
  | display (field : String) (flag : Bool)
  | set (field : String) (value : Value)
  | clear (field : String)
  | diagnostic (text : String)
  | control (field : String) (whole : FieldControl)
  | push (intent : Intent)

/-- Applies a step to a list of intents. -/
def IntentStep.apply (intents : Intents) : IntentStep → Intents
  | .error field message => intents.error field message
  | .warning field message => intents.warning field message
  | .required field flag => intents.required field flag
  | .display field flag => intents.display field flag
  | .set field value => intents.set field value
  | .clear field => intents.clear field
  | .diagnostic text => intents.diagnostic text
  | .control field whole => intents.control field whole
  | .push intent => intents.push intent

/-- The list that a sequence of steps builds. -/
def Intents.build (steps : List IntentStep) : Intents :=
  steps.foldl IntentStep.apply .empty

end RecordGate
