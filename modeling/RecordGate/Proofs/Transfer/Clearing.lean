import RecordGate.Proofs.Double.Range
import RecordGate.Proofs.Transfer.Sending

/-! # What clears a field

A field is cleared by the message that sets it to null. Null itself is sent so, and so is every double that is not
finite, since JSON has no number for it; nothing else is (`clears_iff`, `sendValue_not_a_number`). -/

namespace RecordGate
open Json

variable {σ : Type}

/-- A null, or a type around it that is not seen from outside. -/
inductive Datum.IsNull : Datum → Prop where
  | json : IsNull (.json .null)
  | absent : IsNull .absent
  | wrapped {inner : Datum} : IsNull inner → IsNull (.wrapped inner)

/-- A double that is not finite, or a type around it that is not seen from outside. -/
inductive Datum.NotFinite : Datum → Prop where
  | json {x : Double} : ¬x.Finite → NotFinite (.json (.double x))
  | double {x : Double} : ¬x.Finite → NotFinite (.double x)
  | wrapped {inner : Datum} : NotFinite inner → NotFinite (.wrapped inner)

/-- Sending the datum as the value of the field sets the field to null. -/
def Clears (boundary : Boundary σ) (field : String) (datum : Datum) (s : σ) : Prop :=
  .sent (.set field (Text.bytes "null")) ∈ (sendValue boundary.logged field datum ⟨[], s⟩).2.log

/-! ### The text of null -/

theorem numeral_ne_null {literal : Literal} {rest : List UInt8} : ¬Numeral (Text.bytes "null") literal rest := by
  intro h
  obtain ⟨b, more, hhead, hb⟩ := h.head
  obtain ⟨rfl, -⟩ := List.cons.inj hhead
  exact absurd hb (by decide)

theorem text_eq_null_iff {value : Value} (h : value.isComposite = false) :
    value.text = "null" ↔ value = .null ∨ ∃ x : Double, value = .double x ∧ ¬x.Finite := by
  cases value with
  | null => simp [Value.text]
  | bool flag => cases flag <;> simp [Value.text]
  | int i =>
    simp only [reduceCtorEq, false_and, exists_false, or_self, iff_false]
    intro htext
    obtain ⟨literal, hnumeral⟩ := numeral_int i []
    rw [show toString i = "null" from htext, List.append_nil] at hnumeral
    exact numeral_ne_null hnumeral
  | double x =>
    simp only [reduceCtorEq, Value.double.injEq, false_or, exists_eq_left']
    constructor
    · intro htext hfinite
      obtain ⟨literal, hnumeral⟩ := numeral_doubleText hfinite []
      rw [show doubleText x = "null" from htext, List.append_nil] at hnumeral
      exact numeral_ne_null hnumeral
    · intro hfinite
      exact if_neg hfinite
  | string s =>
    simp only [reduceCtorEq, false_and, exists_false, or_self, iff_false]
    intro htext
    have hbytes := bytes_stringText s
    rw [show stringText s = "null" from htext] at hbytes
    exact absurd (List.cons.inj hbytes).1 (by decide)
  | array | object => cases h

/-! ### Data -/

/-- A scalar that is written as null comes of a null or of a double that is not finite. -/
theorem Datum.Serialises.cause {datum : Datum} {value : Value} (h : datum.Serialises value)
    (hvalue : value = .null ∨ ∃ x : Double, value = .double x ∧ ¬x.Finite) : datum.IsNull ∨ datum.NotFinite := by
  match h with
  | .json =>
    rcases hvalue with rfl | ⟨x, rfl, hx⟩
    · exact .inl .json
    · exact .inr (.json hx)
  | .absent => exact .inl .absent
  | .notFinite hx => exact .inr (.double hx)
  | .finite hx =>
    rcases hvalue with hnull | ⟨y, hy, hnot⟩
    · cases hnull
    · cases hy
      exact absurd hx hnot
  | .wrapped hinner => exact (hinner.cause hvalue).imp .wrapped .wrapped
  | .bool | .int _ | .text | .tagged _ | .list _ | .map _ _ => simp at hvalue

theorem Datum.serialises_null_iff {datum : Datum} :
    (∃ value, datum.Serialises value ∧ value.isComposite = false ∧ value.text = "null") ↔
      datum.IsNull ∨ datum.NotFinite := by
  constructor
  · rintro ⟨value, hserialises, hscalar, htext⟩
    exact hserialises.cause ((text_eq_null_iff hscalar).mp htext)
  · rintro (h | h)
    · refine ⟨.null, ?_, rfl, rfl⟩
      induction h with
      | json => exact .json
      | absent => exact .absent
      | wrapped _ ih => exact .wrapped ih
    · induction h with
      | @json x hfinite => exact ⟨.double x, .json, rfl, if_neg hfinite⟩
      | double hfinite => exact ⟨.null, .notFinite hfinite, rfl, rfl⟩
      | wrapped _ ih =>
        obtain ⟨value, hserialises, hscalar, htext⟩ := ih
        exact ⟨value, .wrapped hserialises, hscalar, htext⟩

theorem Datum.notFinite_double_iff {x : Double} : (Datum.double x).NotFinite ↔ ¬x.Finite :=
  ⟨fun h => by cases h; assumption, .double⟩

theorem Datum.IsNull.not_notFinite {datum : Datum} (h : datum.IsNull) : ¬datum.NotFinite := by
  intro hnot
  induction h with
  | json | absent => cases hnot
  | wrapped _ ih =>
    cases hnot with
    | wrapped hinner => exact ih hinner

/-! ### The message that clears -/

theorem clears_iff_serialises (boundary : Boundary σ) (field : String) (datum : Datum) (s : σ) :
    Clears boundary field datum s ↔
      ∃ value, datum.Serialises value ∧ value.isComposite = false ∧ value.text = "null" := by
  obtain ⟨messages, result, h⟩ := exists_delivered field datum
  rw [Clears, h.sendValue_eq, sendAll_logged]
  cases h with
  | @sent value hvalue hscalar =>
    constructor
    · intro hmem
      simp only [List.nil_append, List.map_cons, List.map_nil, List.mem_singleton, Exchange.sent.injEq,
        Message.set.injEq, true_and] at hmem
      exact ⟨value, hvalue, hscalar, (Text.bytes_injective hmem).symm⟩
    · rintro ⟨other, hother, -, htext⟩
      rw [hvalue.unique hother, htext]
      exact List.mem_singleton_self _
  | composite hvalue hcomposite =>
    refine iff_of_false List.not_mem_nil ?_
    rintro ⟨other, hother, hscalar, -⟩
    rw [hvalue.unique hother, hscalar] at hcomposite
    cases hcomposite
  | failed herror =>
    refine iff_of_false List.not_mem_nil ?_
    rintro ⟨other, hother, -, -⟩
    exact hother.not_fails herror

/-- A field is cleared for a null and for a double that is not finite, and for nothing else, whatever the host. So a
    binary64 or binary32 number clears it exactly if all bits of its exponent are set. -/
theorem clears_iff (boundary : Boundary σ) (field : String) (s : σ) :
    (∀ datum, Clears boundary field datum s ↔ datum.IsNull ∨ datum.NotFinite) ∧
    (∀ datum, (Clears boundary field datum s → datum.IsNull) ↔ ¬datum.NotFinite) ∧
    (∀ bits : UInt64, Clears boundary field (.double ⟨bits⟩) s ↔ bits.toNat / 2 ^ 52 % 2 ^ 11 = 2 ^ 11 - 1) ∧
    ∀ bits : UInt32, Clears boundary field (.double (.ofSingleBits bits)) s ↔
      bits.toNat / 2 ^ 23 % 2 ^ 8 = 2 ^ 8 - 1 := by
  have hclears : ∀ datum, Clears boundary field datum s ↔ datum.IsNull ∨ datum.NotFinite := fun datum =>
    (clears_iff_serialises boundary field datum s).trans Datum.serialises_null_iff
  have hdouble : ∀ x, Clears boundary field (.double x) s ↔ ¬x.Finite := by
    intro x
    rw [hclears, Datum.notFinite_double_iff]
    exact or_iff_right fun h => by cases h
  refine ⟨hclears, fun datum => ?_, fun bits => ?_, fun bits => ?_⟩
  · rw [hclears]
    exact ⟨fun h hnot => (h (.inr hnot)).not_notFinite hnot, fun hnot h => h.resolve_right hnot⟩
  · rw [hdouble]
    exact Decidable.not_not
  · rw [hdouble, Double.finite_ofSingleBits]
    exact Decidable.not_not

/-- What is no number is sent as null, and the sending succeeds. -/
theorem sendValue_not_a_number :
    sendValue (Served.boundary ⟨[], [], [], []⟩).logged "ListPrice" (.double ⟨0x7FF8000000000000⟩) ⟨[], ()⟩ =
        (.ok (), ⟨[.sent (.set "ListPrice" (Text.bytes "null"))], ()⟩) ∧
      ¬(Datum.double ⟨0x7FF8000000000000⟩).IsNull :=
  ⟨rfl, fun h => by cases h⟩

end RecordGate
