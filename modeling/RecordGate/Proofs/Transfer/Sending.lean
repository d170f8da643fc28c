import Mathlib.Algebra.Group.Int.Defs
import RecordGate.Boundary.Served
import RecordGate.Proofs.Boundary.Guest
import RecordGate.Proofs.Invocation.Replaying
import RecordGate.Proofs.Json.Doubles
import RecordGate.Proofs.Json.Printing
import RecordGate.Proofs.Transfer.Serialising

/-! # Sending values

A value is sent in one message or not at all, and what is sent and how the sending ends depends on the datum
alone (`Delivered`). The text in the message is that of a scalar (`ScalarText`), and where it stands for null, a
flag, an integer or a text, the host reads that value back and keeps it (`serve_set`). The main statement is
`sendValue_exact`. -/

namespace RecordGate
open Json Host

variable {σ : Type}

/-- The bytes are a JSON text of null, a flag, a string or a number. -/
inductive ScalarText : List UInt8 → Prop where
  | scalar {text : List UInt8} {value : Value} : Scalar text value [] → ScalarText text
  /-- A numeral is a text of a number even if no reader has room for that number. -/
  | numeral {text : List UInt8} {literal : Literal} : Numeral text literal [] → ScalarText text

/-- What a sending of a value comes to: what is sent and how it ends. -/
inductive Delivered (field : String) (datum : Datum) : List Message → Except TransferError Unit → Prop where
  | sent {value : Value} : datum.Serialises value → value.isComposite = false →
      Delivered field datum [.set field (Text.bytes value.text)] (.ok ())
  | composite {value : Value} : datum.Serialises value → value.isComposite = true →
      Delivered field datum [] (.error (.notScalar field))
  | failed {error : EncodeError} : datum.Fails error → Delivered field datum [] (.error (.encode field error))

/-! ### Texts of scalars -/

theorem numeral_int (i : Int) (rest : List UInt8) :
    ∃ literal, Numeral (Text.bytes (toString i) ++ rest) literal rest := by
  rw [Int.toString_eq_repr, Int.repr_eq_if]
  split
  · rw [bytes_repr]
    exact ⟨_, .positive (magnitude_decimal false _ rest)⟩
  · rw [Text.bytes_append, bytes_repr]
    exact ⟨_, .negative (magnitude_decimal true _ rest)⟩

theorem scalarText_text {value : Value} (h : value.isComposite = false) : ScalarText (Text.bytes value.text) := by
  rw [← List.append_nil (Text.bytes value.text)]
  match value with
  | .null => exact .scalar .null
  | .bool true => exact .scalar .true
  | .bool false => exact .scalar .false
  | .int i =>
    obtain ⟨literal, hnumeral⟩ := numeral_int i []
    exact .numeral hnumeral
  | .double x =>
    by_cases hfinite : x.Finite
    · obtain ⟨literal, hnumeral⟩ := numeral_doubleText hfinite []
      exact .numeral hnumeral
    · have hnull : (Value.double x).text = Value.null.text := if_neg hfinite
      rw [hnull]
      exact .scalar .null
  | .string s =>
    obtain ⟨text, heq, hspells⟩ := spells_stringText s []
    rw [show (Value.string s).text = stringText s from rfl, heq]
    exact .scalar (.string hspells)
  | .array _ | .object _ => cases h

/-! ### The course of a sending -/

section
variable {field : String} {datum : Datum} {messages : List Message} {result : Except TransferError Unit}

theorem exists_delivered (field : String) (datum : Datum) :
    ∃ messages result, Delivered field datum messages result := by
  cases hencode : datum.encode with
  | ok value =>
    have hvalue := Datum.encode_eq_ok_iff.mp hencode
    cases hcomposite : value.isComposite with
    | false => exact ⟨_, _, .sent hvalue hcomposite⟩
    | true => exact ⟨_, _, .composite hvalue hcomposite⟩
  | error error => exact ⟨_, _, .failed (Datum.encode_eq_error_iff.mp hencode)⟩

/-- The sending does what its course says, over any host. -/
theorem Delivered.sendValue_eq (h : Delivered field datum messages result) (boundary : Boundary σ) (s : σ) :
    sendValue boundary field datum s = (result, sendAll boundary messages s) := by
  unfold sendValue payload
  cases h with
  | sent hvalue hscalar =>
    rw [hvalue.encode_eq]
    dsimp only
    rw [hscalar]
    rfl
  | composite hvalue hcomposite =>
    rw [hvalue.encode_eq]
    dsimp only
    rw [hcomposite]
    rfl
  | failed herror =>
    rw [herror.encode_eq]
    rfl

theorem Delivered.eq_ok_iff (h : Delivered field datum messages result) :
    result = .ok () ↔ ∃ value, datum.Serialises value ∧ value.isComposite = false := by
  cases h with
  | sent hvalue hscalar => exact iff_of_true rfl ⟨_, hvalue, hscalar⟩
  | composite hvalue hcomposite =>
    refine iff_of_false (fun heq => by cases heq) ?_
    rintro ⟨other, hother, hscalar⟩
    rw [hvalue.unique hother, hscalar] at hcomposite
    cases hcomposite
  | failed herror =>
    refine iff_of_false (fun heq => by cases heq) ?_
    rintro ⟨value, hvalue, -⟩
    exact hvalue.not_fails herror

/-- Either nothing is sent and the error names the field, or one message sets the field to the text of a
    scalar. -/
theorem Delivered.atomic (h : Delivered field datum messages result) :
    (messages = [] ∧ ((∃ error, datum.Fails error ∧ result = .error (.encode field error)) ∨
        (∃ value, datum.Serialises value ∧ value.isComposite = true) ∧ result = .error (.notScalar field))) ∨
      ∃ value, datum.Serialises value ∧ value.isComposite = false ∧ result = .ok () ∧
        messages = [.set field (Text.bytes value.text)] ∧ ScalarText (Text.bytes value.text) := by
  cases h with
  | sent hvalue hscalar => exact .inr ⟨_, hvalue, hscalar, rfl, rfl, scalarText_text hscalar⟩
  | composite hvalue hcomposite => exact .inl ⟨rfl, .inr ⟨⟨_, hvalue, hcomposite⟩, rfl⟩⟩
  | failed herror => exact .inl ⟨rfl, .inl ⟨_, herror, rfl⟩⟩

end

/-! ### What the host keeps -/

/-- A length and a pointer pass the bytes. -/
structure Host.Memory.Passes (memory : Host.Memory) (length pointer : Int32) (bytes : List UInt8) : Prop where
  inBounds : memory.InBounds length pointer
  passed_eq : memory.passed length pointer = bytes

/-- An argument that is the encoding of a text meets the requirements. -/
theorem Host.Memory.Passes.met {memory : Host.Memory} {length pointer : Int32} {text : String}
    (h : memory.Passes length pointer (Text.bytes text)) (argument : String) :
    AllMet (memory.textRequirements argument length pointer) :=
  allMet_append.mpr ⟨h.inBounds.met argument, List.forall_mem_singleton.mpr ⟨text, h.passed_eq.symm⟩⟩

/-- The host takes the text of a scalar that is no double for that scalar. -/
theorem serve_set {t : HostState} (hexported : t.exported = true) {field : String} {value : Value}
    (hscalar : value.isComposite = false) (hintegral : value.Integral) {fl fp vl vp : Int32}
    (hfield : t.memory.Passes fl fp (Text.bytes field))
    (hvalue : t.memory.Passes vl vp (Text.bytes value.text)) :
    t.serve (.set fl fp vl vp) = (.ok none, t.record (.set field value)) := by
  have hparse := parse_text_of_flat hscalar hintegral
  rw [← hvalue.passed_eq] at hparse
  have hmet : AllMet (t.requirements (.set fl fp vl vp)) :=
    allMet_cons.mpr ⟨hexported, allMet_append.mpr ⟨hfield.met "field",
      allMet_append.mpr ⟨hvalue.met "value", List.forall_mem_singleton.mpr ⟨value, hparse⟩⟩⟩⟩
  obtain ⟨answer, u, hserve, hgranted⟩ := serve_granted hmet
  obtain ⟨rfl, rfl⟩ := hgranted.unique (.recorded (.set hfield.passed_eq.symm hparse))
  exact hserve

/-! ### The main statement -/

/-- Sending a datum as the value of a field either fails, with an error that names the field, and sends nothing,
    or it sends one message, which sets the field to the text of a scalar. It succeeds exactly if the datum
    serialises to a value that is neither an array nor an object. An integer is sent in decimal exactly if it
    fits 64 bits, with a sign or without. And where a host is passed what is sent for null, a flag, an integer
    or a text, it keeps the field and the value. -/
theorem sendValue_exact (boundary : Boundary σ) (field : String) (datum : Datum) (s : σ) :
    (∃ messages result,
      sendValue boundary.logged field datum ⟨[], s⟩ =
        (result, ⟨messages.map .sent, sendAll boundary messages s⟩) ∧
      ((messages = [] ∧ ((∃ error, datum.Fails error ∧ result = .error (.encode field error)) ∨
          (∃ value, datum.Serialises value ∧ value.isComposite = true) ∧ result = .error (.notScalar field))) ∨
        ∃ value, datum.Serialises value ∧ value.isComposite = false ∧ result = .ok () ∧
          messages = [.set field (Text.bytes value.text)] ∧ ScalarText (Text.bytes value.text)) ∧
      (result = .ok () ↔ ∃ value, datum.Serialises value ∧ value.isComposite = false)) ∧
    (∀ number : Int, sendValue boundary.logged field (.int number) ⟨[], s⟩ =
      if -2 ^ 63 ≤ number ∧ number ≤ 2 ^ 64 - 1 then
        (.ok (), ⟨[.sent (.set field (Text.bytes (toString number)))],
          boundary.send (.set field (Text.bytes (toString number))) s⟩)
      else (.error (.encode field .numberOutOfRange), ⟨[], s⟩)) ∧
    ∀ value, datum.Serialises value → value.isComposite = false → value.Integral →
      ∀ (t : HostState) (fl fp vl vp : Int32), t.exported = true →
        t.memory.Passes fl fp (Text.bytes field) → t.memory.Passes vl vp (Text.bytes value.text) →
        t.serve (.set fl fp vl vp) = (.ok none, { t with calls := t.calls ++ [.set field value] }) := by
  refine ⟨?_, fun number => ?_, fun value _ hscalar hintegral t fl fp vl vp hexported hfield hvalue => ?_⟩
  · obtain ⟨messages, result, h⟩ := exists_delivered field datum
    refine ⟨messages, result, ?_, h.atomic, h.eq_ok_iff⟩
    rw [h.sendValue_eq, sendAll_logged]
    rfl
  · have hrange : IntegerInRange number ↔ -2 ^ 63 ≤ number ∧ number ≤ 2 ^ 64 - 1 := by
      unfold IntegerInRange
      omega
    by_cases h : IntegerInRange number
    · have hsent : Delivered field (.int number) _ _ := .sent (.int h) rfl
      rw [if_pos (hrange.mp h), hsent.sendValue_eq, sendAll_logged]
      rfl
    · have hfailed : Delivered field (.int number) _ _ := .failed (.int h)
      rw [if_neg (mt hrange.mpr h), hfailed.sendValue_eq]
      rfl
  · exact serve_set hexported hscalar hintegral hfield hvalue

/-- A text is kept with the characters that are escaped in what is sent. -/
theorem sendValue_exact_escaped :
    let s : HostState := ⟨(Placement.writeAll 16 (.zeros 1) [Text.bytes "Note", Text.bytes "\"a\\n\""]).1, true,
      ⟨"null", ""⟩, []⟩
    (sendValue (Served.boundary ⟨[], [], [], []⟩).logged "Note" (.wrapped (.text "a\n")) ⟨[], ()⟩).1 = .ok () ∧
      s.serve (.set 4 16 5 20) = (.ok none, { s with calls := [.set "Note" (.string "a\n")] }) := by
  intro s
  obtain ⟨⟨messages, result, heq, -, hok⟩, -, hkept⟩ :=
    sendValue_exact (Served.boundary ⟨[], [], [], []⟩) "Note" (.wrapped (.text "a\n")) ()
  refine ⟨?_, hkept (.string "a\n") (.wrapped .text) rfl trivial s 4 16 5 20 rfl ?_ ?_⟩
  · rw [heq]
    exact hok.mpr ⟨_, .wrapped .text, rfl⟩
  · exact ⟨⟨by decide, by decide, by decide⟩, by decide⟩
  · exact ⟨⟨by decide, by decide, by decide⟩, by decide⟩

end RecordGate
