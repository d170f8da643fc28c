import RecordGate.Host.Call
import RecordGate.Intent
import RecordGate.Proofs.Json.Unambiguous

/-! # Comparing intents and reports by their texts

Lists of intents, and reports, are the same exactly if their JSON texts are (`serialised_eq_iff`), so no
field, message or value makes one sequence look like another. An intent or a call starts with its kind, which
tells what members follow, and the text of the whole tells where each value ends. -/

namespace RecordGate
open Json Host

/-- No value that is set contains a double. -/
def Intents.Integral (intents : Intents) : Prop :=
  ∀ field value, .setValue field value ∈ intents.entries → value.Integral

/-- No value that was set contains a double. -/
def Host.Report.Integral (report : Report) : Prop :=
  ∀ field value, .set field value ∈ report.calls → value.Integral

/-! ### Single intents and calls -/

theorem Intent.toValue_inj {intent other : Intent} (h : intent.toValue = other.toValue) : intent = other := by
  cases intent <;> cases other <;> simp_all [Intent.toValue]

theorem Host.HostCall.toValue_inj {call other : HostCall} (h : call.toValue = other.toValue) : call = other := by
  cases call <;> cases other <;> simp_all [HostCall.toValue]

theorem Intent.integral_toValue {intent : Intent}
    (h : ∀ field value, intent = .setValue field value → value.Integral) : intent.toValue.Integral := by
  cases intent with
  | setValue field value => exact ⟨trivial, trivial, h field value rfl, trivial⟩
  | diagnostic text => exact ⟨trivial, trivial, trivial⟩
  | reportError | reportWarning | setRequired | setDisplay => exact ⟨trivial, trivial, trivial, trivial⟩

theorem Host.HostCall.integral_toValue {call : HostCall}
    (h : ∀ field value, call = .set field value → value.Integral) : call.toValue.Integral := by
  cases call with
  | set field value => exact ⟨trivial, trivial, h field value rfl, trivial⟩
  | diagnostic text => exact ⟨trivial, trivial, trivial⟩
  | error | warn | setRequired | setDisplay => exact ⟨trivial, trivial, trivial, trivial⟩

/-! ### Sequences -/

theorem integralItems_iff {items : List Value} : Value.IntegralItems items ↔ ∀ item ∈ items, item.Integral := by
  induction items with
  | nil => simp [Value.IntegralItems]
  | cons item items ih => simp [Value.IntegralItems, ih]

theorem Intents.Integral.toValue {intents : Intents} (h : intents.Integral) : intents.toValue.Integral := by
  refine integralItems_iff.mpr fun item hitem => ?_
  obtain ⟨intent, hintent, rfl⟩ := List.mem_map.mp hitem
  exact Intent.integral_toValue fun field value heq => h field value (heq ▸ hintent)

theorem Host.Report.Integral.toValue {report : Report} (h : report.Integral) : report.toValue.Integral := by
  refine ⟨integralItems_iff.mpr fun item hitem => ?_, trivial⟩
  obtain ⟨call, hcall, rfl⟩ := List.mem_map.mp hitem
  exact HostCall.integral_toValue fun field value heq => h field value (heq ▸ hcall)

theorem Intents.toValue_inj {a b : Intents} (h : a.toValue = b.toValue) : a = b := by
  obtain ⟨entries⟩ := a
  obtain ⟨others⟩ := b
  have hentries : entries.map Intent.toValue = others.map Intent.toValue := Value.array.inj h
  rw [(List.map_inj_right fun _ _ => Intent.toValue_inj).mp hentries]

theorem Host.Report.toValue_inj {r s : Report} (h : r.toValue = s.toValue) : r = s := by
  obtain ⟨calls⟩ := r
  obtain ⟨others⟩ := s
  have hcalls : calls.map HostCall.toValue = others.map HostCall.toValue := by
    simpa [Report.toValue] using h
  rw [(List.map_inj_right fun _ _ => HostCall.toValue_inj).mp hcalls]

/-- Two lists of intents without doubles have the same JSON text exactly if they are the same list, and so do
    two reports. -/
theorem serialised_eq_iff :
    (∀ a b : Intents, a.Integral → b.Integral → (a.toValue.text = b.toValue.text ↔ a = b)) ∧
    ∀ r s : Report, r.Integral → s.Integral → (r.toValue.text = s.toValue.text ↔ r = s) := by
  refine ⟨fun a b ha hb => ⟨fun h => ?_, fun h => by rw [h]⟩, fun r s hr hs => ⟨fun h => ?_, fun h => by rw [h]⟩⟩
  · exact Intents.toValue_inj (Value.eq_of_text ha.toValue hb.toValue h)
  · exact Report.toValue_inj (Value.eq_of_text hr.toValue hs.toValue h)

/-- A note that imitates the end of a note and the start of another is still a single one. -/
theorem serialised_eq_iff_imitated :
    (Intents.mk [.diagnostic "a\"\x7d,\x7b\"type\":\"diagnostic\",\"text\":\"b"]).toValue.text ≠
        (Intents.mk [.diagnostic "a", .diagnostic "b"]).toValue.text ∧
      (Report.mk [.set "f" (.int 1)]).toValue.text ≠ (Report.mk [.set "f" (.string "1")]).toValue.text := by
  have hone : IntegerInRange 1 := by decide
  refine ⟨fun h => ?_, fun h => ?_⟩
  · have heq := (serialised_eq_iff.1 _ _ (by simp [Intents.Integral]) (by simp [Intents.Integral])).mp h
    simp at heq
  · have heq := (serialised_eq_iff.2 _ _
      (by simp [Report.Integral, Value.Integral, hone]) (by simp [Report.Integral, Value.Integral])).mp h
    simp at heq

end RecordGate
