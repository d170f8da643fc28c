import RecordGate.Proofs.Boundary.Keeping
import RecordGate.Proofs.Json.Printing

/-! # Hosts that present the fields

The state of a host may present each field: whether it is required, whether it is visible, and what the host has made
of its value. A message says something of the parts of one field at most (`Message.states`), and what it says stands
over what was there before (`Boundary.Presents`). After many messages each part is what was said of it last
(`Statement.after_eq`). -/

namespace RecordGate
open Json

variable {σ α β γ : Type}

/-- How a host presents a field. -/
structure Presentation (α : Type) where
  required : Bool
  display : Bool
  value : α

/-- What is said of a field: of each flag and of the value, if anything is said of it. -/
structure Statement (α : Type) where
  required : Option Bool := none
  display : Option Bool := none
  value : Option α := none

/-- What a statement leaves of a presentation. -/
def Statement.onto (statement : Statement α) (before : Presentation α) : Presentation α where
  required := statement.required.getD before.required
  display := statement.display.getD before.display
  value := statement.value.getD before.value

/-- What statements leave of a presentation, one behind the other. -/
def Presentation.after (before : Presentation α) (statements : List (Statement α)) : Presentation α :=
  statements.foldl (fun before statement => statement.onto before) before

theorem Presentation.after_cons (before : Presentation α) (statement : Statement α) (rest : List (Statement α)) :
    before.after (statement :: rest) = (statement.onto before).after rest :=
  rfl

theorem Presentation.after_append (before : Presentation α) (earlier later : List (Statement α)) :
    before.after (earlier ++ later) = (before.after earlier).after later :=
  List.foldl_append

namespace Statement

/-! ### What is said last -/

/-- What is said last of a part, if anything is said of it. -/
def last (part : Statement α → Option β) (statements : List (Statement α)) : Option β :=
  statements.reverse.findSome? part

theorem last_cons (part : Statement α → Option β) (statement : Statement α) (rest : List (Statement α)) :
    last part (statement :: rest) = (last part rest).or (part statement) := by
  unfold last
  rw [List.reverse_cons, List.findSome?_append, List.findSome?_singleton]

theorem last_map (part : Statement β → Option γ) (f : Statement α → Statement β) (statements : List (Statement α)) :
    last part (statements.map f) = last (fun statement => part (f statement)) statements := by
  unfold last
  rw [← List.map_reverse, List.findSome?_map]
  rfl

/-- Statements leave of each part what is said of it last. -/
theorem after_eq (statements : List (Statement α)) (before : Presentation α) :
    before.after statements =
      ⟨(last required statements).getD before.required, (last display statements).getD before.display,
        (last value statements).getD before.value⟩ := by
  induction statements generalizing before with
  | nil => rfl
  | cons statement rest ih =>
    rw [Presentation.after_cons, ih]
    simp only [last_cons, Option.getD_or, onto]

/-- The statement with what is read of its value, and without one if nothing is. -/
def reading (read : α → Option β) (statement : Statement α) : Statement β :=
  ⟨statement.required, statement.display, statement.value.bind read⟩

/-- Reading the values of statements alters nothing of what is said of the flags. -/
theorem after_reading (read : α → Option β) (statements : List (Statement α)) (before : Presentation β) :
    before.after (statements.map (reading read)) =
      ⟨(last required statements).getD before.required, (last display statements).getD before.display,
        (last value (statements.map (reading read))).getD before.value⟩ := by
  rw [after_eq, last_map required, last_map display]
  rfl

theorem last_reading_value_none {read : α → Option β} {statements : List (Statement α)}
    (h : last value statements = none) : last value (statements.map (reading read)) = none := by
  rw [last_map]
  unfold last at h ⊢
  rw [List.findSome?_eq_none_iff] at h ⊢
  intro statement hstatement
  show statement.value.bind read = none
  rw [h statement hstatement, Option.bind_none]

/-- A value that is said last, if it can be read, is the last that is read. -/
theorem last_reading_value_some {read : α → Option β} {statements : List (Statement α)} {a : α} {b : β}
    (hlast : last value statements = some a) (hread : read a = some b) :
    last value (statements.map (reading read)) = some b := by
  rw [last_map]
  unfold last at hlast ⊢
  generalize statements.reverse = said at hlast ⊢
  induction said with
  | nil => cases hlast
  | cons statement earlier ih =>
    rw [List.findSome?_cons] at hlast ⊢
    cases hvalue : statement.value with
    | none =>
      rw [hvalue] at hlast
      simpa [reading, hvalue] using ih hlast
    | some c =>
      rw [hvalue] at hlast
      cases hlast
      simp [reading, hvalue, hread]

end Statement

/-! ### Messages -/

/-- What a message says about a field, with values as `read` takes them. -/
def Message.states (read : List UInt8 → Option α) (field : String) : Message → Statement α
  | .setRequired about flag => if about = field then { required := some (flag != 0) } else {}
  | .setDisplay about flag => if about = field then { display := some (flag != 0) } else {}
  | .set about bytes => if about = field then { value := read bytes } else {}
  | .diagnostic _ | .error _ _ | .warn _ _ => {}

/-- The state of a host presents the fields, and of each field what a message says stands over what was there. A value
    that the host cannot read is not taken. -/
def Boundary.Presents (boundary : Boundary σ) (read : List UInt8 → Option α) (shown : σ → String → Presentation α) :
    Prop :=
  ∀ message s field, shown (boundary.send message s) field = (message.states read field).onto (shown s field)

theorem Boundary.Presents.sendAll {boundary : Boundary σ} {read : List UInt8 → Option α}
    {shown : σ → String → Presentation α} (h : boundary.Presents read shown) (messages : List Message) (s : σ)
    (field : String) :
    shown (sendAll boundary messages s) field = (shown s field).after (messages.map (Message.states read field)) := by
  induction messages generalizing s with
  | nil => rfl
  | cons message rest ih => rw [sendAll_cons, ih, h, List.map_cons, Presentation.after_cons]

/-! ### Hosts that keep JSON values -/

/-- What a host keeps of a field is how it presents it. -/
def FieldState.presentation (state : FieldState) : Presentation Value :=
  ⟨state.required, state.display, state.value⟩

/-- The value of a JSON text. -/
def parsed (bytes : List UInt8) : Option Value :=
  (Json.parse bytes).toOption

/-- A host that keeps the fields presents them, with values as their texts are parsed. -/
theorem Boundary.keeping_presents (boundary : Boundary σ) :
    boundary.keeping.Presents parsed fun s field => (s.fields field).presentation := by
  intro message s field
  show (FieldState.hear field (s.fields field) message).presentation = _
  cases message with
  | setRequired about flag | setDisplay about flag =>
    simp only [FieldState.hear, Message.states]
    split <;> rfl
  | set about bytes =>
    simp only [FieldState.hear, Message.states, parsed]
    cases Json.parse bytes <;> split <;> rfl
  | diagnostic | error | warn => rfl

theorem parsed_text {value : Value} (hflat : value.isComposite = false) (hintegral : value.Integral) :
    parsed (Text.bytes value.text) = some value := by
  unfold parsed
  rw [Json.parse_text_of_flat hflat hintegral]
  rfl

end RecordGate
