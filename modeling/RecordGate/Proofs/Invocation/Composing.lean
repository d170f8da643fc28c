import Mathlib.Data.List.TakeWhile
import RecordGate.Proofs.Invocation.Replaying

/-! # Replaying lists that are put together

A replay gets as far as the intents can be sent (`Intent.isSendable`): those before the first that cannot are
sent one by one, and that one names its field. So replaying two lists one behind the other is replaying the
first and then, if nothing stopped it, the second (`report_append_eq`). The main statement is
`report_homomorphic`. -/

namespace RecordGate

variable {σ : Type}

/-- The intent has a message: it does not set a field to an array or an object. -/
def Intent.isSendable : Intent → Bool
  | .setValue _ value => !value.isComposite
  | _ => true

/-- Whether the message reports an error. -/
def Message.isError : Message → Bool
  | .error _ _ => true
  | _ => false

/-! ### Intents and their messages -/

theorem Intent.isSendable_of_message? {intent : Intent} {message : Message} (h : intent.message? = some message) :
    intent.isSendable = true := by
  cases intent with
  | setValue field value =>
    simp only [Intent.message?] at h
    split at h
    · cases h
    · next hscalar => exact (Bool.not_eq_true' _).mpr (eq_false_of_ne_true hscalar)
  | _ => rfl

theorem Intent.isError_of_message? {intent : Intent} {message : Message} (h : intent.message? = some message) :
    message.isError = intent.isError := by
  cases intent with
  | setValue field value =>
    simp only [Intent.message?] at h
    split at h
    · cases h
    · cases h
      rfl
  | _ => cases h; rfl

section
variable {intents : List Intent} {messages : List Message}

theorem all_isSendable (h : intents.map Intent.message? = messages.map some) :
    ∀ intent ∈ intents, intent.isSendable = true := by
  intro intent hintent
  have hmessage : intent.message? ∈ messages.map some := h ▸ List.mem_map_of_mem hintent
  obtain ⟨message, -, heq⟩ := List.mem_map.mp hmessage
  exact Intent.isSendable_of_message? heq.symm

/-- Messages are mapped as the intents that they replay. -/
theorem map_messages {α : Type} (h : intents.map Intent.message? = messages.map some) {f : Intent → α}
    {g : Message → α} (hfg : ∀ intent message, intent.message? = some message → g message = f intent) :
    messages.map g = intents.map f := by
  induction intents generalizing messages with
  | nil =>
    rw [List.map_eq_nil_iff.mp h.symm]
    rfl
  | cons intent intents ih =>
    obtain ⟨message, rest, rfl, hmessage, hrest⟩ := List.map_eq_cons_iff.mp h.symm
    rw [List.map_cons, List.map_cons, ih hrest.symm, hfg intent message hmessage.symm]

/-- Messages are counted as the intents that they replay. -/
theorem countP_messages (h : intents.map Intent.message? = messages.map some) {p : Intent → Bool}
    {q : Message → Bool} (hpq : ∀ intent message, intent.message? = some message → q message = p intent) :
    messages.countP q = intents.countP p := by
  calc messages.countP q = (messages.map q).countP id := by rw [List.countP_map, Function.id_comp]
    _ = intents.countP p := by rw [map_messages h hpq, List.countP_map, Function.id_comp]

theorem count_messages (h : intents.map Intent.message? = messages.map some) (message : Message) :
    messages.count message = intents.countP (·.message? == some message) :=
  countP_messages h fun intent other hother => by rw [hother, Option.some_beq_some]

/-! ### How far a replay gets -/

variable {before after : List Intent} {field : String} {value : Json.Value}

theorem takeWhile_isSendable (hbefore : before.map Intent.message? = messages.map some)
    (hcomposite : value.isComposite = true) :
    (before ++ .setValue field value :: after).takeWhile Intent.isSendable = before := by
  have hstop : ¬(Intent.setValue field value).isSendable = true := by
    rw [Intent.isSendable, hcomposite]
    exact Bool.false_ne_true
  rw [List.takeWhile_append_of_pos (all_isSendable hbefore), List.takeWhile_cons_of_neg hstop, List.append_nil]

variable {result : Except TransferError Nat}

/-- What is sent are the intents before the first that cannot be sent. -/
theorem Replayed.sent (h : Replayed intents messages result) :
    (intents.takeWhile Intent.isSendable).map Intent.message? = messages.map some := by
  cases h with
  | all hall => rwa [List.takeWhile_eq_self_iff.mpr (all_isSendable hall)]
  | upTo hbefore hcomposite => rwa [takeWhile_isSendable hbefore hcomposite]

/-- The replay succeeds exactly if all intents can be sent, and then counts the errors. -/
theorem Replayed.eq_ok_iff (h : Replayed intents messages result) {count : Nat} : result = .ok count ↔
    intents.takeWhile Intent.isSendable = intents ∧ count = intents.countP Intent.isError := by
  cases h with
  | all hall =>
    rw [List.takeWhile_eq_self_iff.mpr (all_isSendable hall), Except.ok.injEq, eq_comm]
    exact (and_iff_right rfl).symm
  | upTo hbefore hcomposite =>
    rw [takeWhile_isSendable hbefore hcomposite]
    constructor
    · intro heq
      cases heq
    · rintro ⟨hself, -⟩
      exact absurd (List.self_eq_append_right.mp hself) (List.cons_ne_nil _ _)

/-- The replay fails exactly if an intent cannot be sent, and names the field of the first such intent. -/
theorem Replayed.eq_error_iff (h : Replayed intents messages result) {error : TransferError} :
    result = .error error ↔ ∃ field value after,
      intents = intents.takeWhile Intent.isSendable ++ .setValue field value :: after ∧
        value.isComposite = true ∧ error = .notScalar field := by
  cases h with
  | all hall =>
    rw [List.takeWhile_eq_self_iff.mpr (all_isSendable hall)]
    constructor
    · intro heq
      cases heq
    · rintro ⟨field, value, after, hself, -⟩
      exact absurd (List.self_eq_append_right.mp hself) (List.cons_ne_nil _ _)
  | @upTo before after field value messages hbefore hcomposite =>
    rw [takeWhile_isSendable hbefore hcomposite]
    constructor
    · intro heq
      cases heq
      exact ⟨field, value, after, rfl, hcomposite, rfl⟩
    · rintro ⟨field', value', after', hintents, -, rfl⟩
      obtain ⟨heq, -⟩ := List.cons.inj (List.append_cancel_left hintents)
      cases heq
      rfl

end

/-! ### Lists that are put together -/

/-- Replaying two lists one behind the other is replaying the first and then, if nothing stopped it, the
    second. -/
theorem report_append_eq (boundary : Boundary σ) (first second : List Intent) (s : σ) :
    report boundary (first ++ second) s = match report boundary first s with
      | (.error error, t) => (.error error, t)
      | (.ok count, t) => ((report boundary second t).1.map (count + ·), (report boundary second t).2) := by
  induction first generalizing s with
  | nil =>
    rw [List.nil_append, report]
    dsimp only
    rcases report boundary second s with ⟨error | count, t⟩
    · rfl
    · simp only [Except.map, Nat.zero_add]
  | cons intent first ih =>
    rw [List.cons_append, report, report]
    rcases intent.send boundary s with ⟨error | ⟨⟩, t⟩
    · rfl
    · dsimp only
      rw [ih]
      rcases report boundary first t with ⟨error | count, u⟩
      · rfl
      · dsimp only [Except.map]
        rcases report boundary second u with ⟨error | more, v⟩
        · rfl
        · simp only [Nat.add_right_comm]

/-- A replay sends the longest beginning of the list that can be sent, one message for each intent, in order, as
    often as it is there, and nothing else. It succeeds exactly if that is the whole list, with the number of
    errors in the list, which is also the number of errors sent; otherwise it names the field of the first intent
    that was not sent. Replaying two lists one behind the other is replaying the first and then, only if that
    succeeded, the second, and the counts are added. -/
theorem report_homomorphic (boundary : Boundary σ) (intents more : List Intent) (s : σ) :
    (∃ messages result,
      report boundary.logged intents ⟨[], s⟩ = (result, ⟨messages.map .sent, sendAll boundary messages s⟩) ∧
      (intents.takeWhile Intent.isSendable).map Intent.message? = messages.map some ∧
      (∀ message, messages.count message =
        (intents.takeWhile Intent.isSendable).countP (·.message? == some message)) ∧
      (∀ count, result = .ok count ↔ intents.takeWhile Intent.isSendable = intents ∧
        count = Intents.errorCount ⟨intents⟩ ∧ count = messages.countP Message.isError) ∧
      (∀ error, result = .error error ↔ ∃ field value after,
        intents = intents.takeWhile Intent.isSendable ++ .setValue field value :: after ∧
          value.isComposite = true ∧ error = .notScalar field)) ∧
    report boundary (intents ++ more) s = match report boundary intents s with
      | (.error error, t) => (.error error, t)
      | (.ok count, t) => ((report boundary more t).1.map (count + ·), (report boundary more t).2) := by
  refine ⟨?_, report_append_eq boundary intents more s⟩
  obtain ⟨messages, result, h⟩ := exists_replayed intents
  have hsent := h.sent
  refine ⟨messages, result, ?_, hsent, count_messages hsent, fun count => ?_, fun error => h.eq_error_iff⟩
  · rw [h.report_eq, sendAll_logged]
    rfl
  · rw [h.eq_ok_iff]
    refine and_congr_right fun hall => ?_
    rw [countP_messages hsent fun _ _ => Intent.isError_of_message?, hall]
    exact (and_self_iff).symm

end RecordGate
