import RecordGate.Proofs.Boundary.Guest
import RecordGate.Proofs.Boundary.Layout
import RecordGate.Proofs.Json.Printing

/-! # Guests in modules and guests on fixed records

Rules that are run in a module, against the host functions and through linear memory, do the same as over a
host with fixed records (`invoke_linked`): the calls, the reported sizes and the outcome are the same, no
host function fails, and the host has kept every message as the call that it stands for. What makes this go
through for values is that the host parses the text of a scalar to that scalar. -/

namespace RecordGate
open Host Record

/-! ### What the host keeps of an intent -/

/-- A value that is set and can be sent is no double, and an integer only within 64 bits. -/
def Intent.Integral : Intent → Prop
  | .setValue _ value => value.isComposite = false → value.Integral
  | _ => True

/-- The call that the host keeps of an intent. -/
def Intent.call : Intent → HostCall
  | .reportError field message => .error field message
  | .reportWarning field message => .warn field message
  | .setRequired field required => .setRequired field required
  | .setDisplay field display => .setDisplay field display
  | .setValue field value => .set field value
  | .diagnostic text => .diagnostic text

theorem Intent.isError_call (intent : Intent) : intent.call.isError = intent.isError := by
  cases intent <;> rfl

theorem Intent.received {intent : Intent} (hintegral : intent.Integral) {message : Message}
    (h : intent.message? = some message) : message.Encoded ∧ message.received? = some intent.call := by
  cases intent with
  | reportError field message =>
    cases h
    exact ⟨.of_texts [field, message] rfl, rfl⟩
  | reportWarning field message =>
    cases h
    exact ⟨.of_texts [field, message] rfl, rfl⟩
  | setRequired field required =>
    cases h
    refine ⟨.of_texts [field] rfl, ?_⟩
    cases required <;> rfl
  | setDisplay field display =>
    cases h
    refine ⟨.of_texts [field] rfl, ?_⟩
    cases display <;> rfl
  | diagnostic text =>
    cases h
    exact ⟨.of_texts [text] rfl, rfl⟩
  | setValue field value =>
    simp only [Intent.message?] at h
    by_cases hcomposite : value.isComposite = true
    · rw [if_pos hcomposite] at h
      cases h
    · rw [if_neg hcomposite] at h
      cases h
      have hscalar : value.isComposite = false := eq_false_of_ne_true hcomposite
      have hparse := Json.parse_text_of_flat hscalar (hintegral hscalar)
      refine ⟨.of_texts [field, value.text] rfl, ?_⟩
      simp only [Message.received?, hparse]
      rfl

theorem KeptAs.of_intents {intents : List Intent} {messages : List Message}
    (h : intents.map Intent.message? = messages.map some) (hintegral : ∀ intent ∈ intents, intent.Integral) :
    KeptAs messages (intents.map Intent.call) := by
  induction intents generalizing messages with
  | nil =>
    obtain rfl : messages = [] := List.map_eq_nil_iff.mp h.symm
    exact .nil
  | cons intent intents ih =>
    obtain ⟨message, rest, rfl, hmessage, hrest⟩ := List.map_eq_cons_iff.mp h.symm
    obtain ⟨hintent, hintents⟩ := List.forall_mem_cons.mp hintegral
    obtain ⟨hencoded, hreceived⟩ := Intent.received hintent hmessage.symm
    exact .cons hencoded hreceived (ih hrest.symm hintents)

theorem countP_isError_call (intents : List Intent) :
    (intents.map Intent.call).countP HostCall.isError = intents.countP Intent.isError := by
  rw [List.countP_map]
  exact List.countP_congr fun intent _ => by rw [Function.comp_apply, Intent.isError_call]

/-- What is replayed is kept, and the errors among it are those that are counted. -/
theorem Replayed.keptAs {intents : List Intent} {messages : List Message} {result : Except TransferError Nat}
    (h : Replayed intents messages result) (hintegral : ∀ intent ∈ intents, intent.Integral) :
    ∃ calls, KeptAs messages calls ∧ ∀ errors, result = .ok errors → errors = calls.countP HostCall.isError := by
  cases h with
  | all hall =>
    refine ⟨_, .of_intents hall hintegral, ?_⟩
    intro errors heq
    cases heq
    exact (countP_isError_call intents).symm
  | upTo hbefore hcomposite =>
    refine ⟨_, .of_intents hbefore fun intent hmem => hintegral intent (List.mem_append_left _ hmem), ?_⟩
    intro errors heq
    cases heq

theorem keptAs_closing (outcome : Outcome) : ∃ calls, KeptAs outcome.closing calls := by
  cases outcome with
  | completed errors => exact ⟨[], .nil⟩
  | aborted reason =>
    have hintegral : (Intent.diagnostic reason.message).Integral := trivial
    obtain ⟨hencoded, hreceived⟩ := Intent.received hintegral rfl
    exact ⟨_, .cons hencoded hreceived .nil⟩

variable {ρ : Type}

theorem Concluded.keptAs {schema : Schema ρ} {rules : ρ → ρ → Intents} {current previous : List UInt8}
    {messages : List Message} {outcome : Outcome} (h : Concluded schema rules current previous messages outcome)
    (hintegral : ∀ current previous, ∀ intent ∈ (rules current previous).entries, intent.Integral) :
    ∃ calls, KeptAs (messages ++ outcome.closing) calls ∧
      ∀ errors, outcome = .completed errors → errors = calls.countP HostCall.isError := by
  obtain ⟨closing, hclosing⟩ := keptAs_closing outcome
  cases h with
  | undecoded hdecode =>
    refine ⟨closing, hclosing, ?_⟩
    intro errors heq
    cases heq
  | completed hdecode hreplayed =>
    obtain ⟨calls, hcalls, herrors⟩ := hreplayed.keptAs (hintegral _ _)
    rw [Outcome.closing, List.append_nil]
    refine ⟨calls, hcalls, ?_⟩
    intro errors heq
    cases heq
    exact herrors _ rfl
  | unsendable hdecode hreplayed =>
    obtain ⟨calls, hcalls, -⟩ := hreplayed.keptAs (hintegral _ _)
    refine ⟨calls ++ closing, hcalls.append hclosing, ?_⟩
    intro errors heq
    cases heq

/-! ### The same invocation twice -/

/-- The host with the fixed records of a pair. -/
def Host.RecordPair.served (records : RecordPair) : Served :=
  { current := records.bytes .current, previous := records.bytes .previous }

theorem filterMap_message?_servingCalls (snapshot : Snapshot) (record : List UInt8) :
    (servingCalls snapshot record).filterMap Exchange.message? = [] := by
  unfold servingCalls
  split <;> rfl

theorem passed_eq (outcome : Outcome) (calls : List HostCall)
    (herrors : ∀ errors, outcome = .completed errors → errors = calls.countP HostCall.isError) :
    outcome.passed = (!outcome.isAborted && (Report.mk calls).passed) := by
  cases outcome with
  | aborted reason => rfl
  | completed errors =>
    obtain rfl := herrors errors rfl
    show (calls.countP HostCall.isError == 0) = (!calls.any HostCall.isError)
    rw [Bool.eq_iff_iff, beq_iff_eq, Bool.not_eq_true', List.any_eq_false, List.countP_eq_zero]

/-- A guest in a module does the same as one on a host with the same fixed records, wherever it places its
    texts and buffers. The outcome is the same, no call fails, and the host has kept the messages of the log
    as the calls that they stand for, with as many errors among them as were counted. -/
theorem invoke_linked (placement : Placement) (memory : Host.Memory) (records : RecordPair) (schema : Schema ρ)
    (rules : ρ → ρ → Intents) (hsizes : ∀ snapshot, (records.bytes snapshot).length < 0x80000000)
    (hintegral : ∀ current previous, ∀ intent ∈ (rules current previous).entries, intent.Integral)
    (hsound : placement.Sound memory records
      ((invoke records.served.boundary.logged schema rules ⟨[], ()⟩).2.log.filterMap Exchange.message?)) :
    ∃ outcome log guest,
      invoke records.served.boundary.logged schema rules ⟨[], ()⟩ = (outcome, ⟨log, ()⟩) ∧
      invoke (Guest.boundary placement) schema rules (Guest.link memory records) = (outcome, guest) ∧
      guest.fault? = none ∧
      (log.filterMap Exchange.message?).map Message.received? = guest.host.calls.map some ∧
      (∀ errors, outcome = .completed errors → errors = guest.host.calls.countP HostCall.isError) ∧
      outcome.passed = (!outcome.isAborted && (Report.mk guest.host.calls).passed) := by
  -- What follows the fetches depends on the records alone, so both runs come to the same conclusion.
  obtain ⟨messages, outcome, hconcluded⟩ :=
    exists_concluded schema rules (records.bytes .current) (records.bytes .previous)
  have hserved := Served.invoke_eq (hsizes .current) (hsizes .previous) hconcluded
  have hmessages : (servingCalls .current (records.bytes .current) ++
      servingCalls .previous (records.bytes .previous) ++
      (messages ++ outcome.closing).map Exchange.sent).filterMap Exchange.message? =
        messages ++ outcome.closing := by
    rw [List.filterMap_append, List.filterMap_append, filterMap_message?_servingCalls,
      filterMap_message?_servingCalls, filterMap_message?_sent]
    rfl
  have hreference : invoke records.served.boundary.logged schema rules ⟨[], ()⟩ = _ := hserved
  rw [hreference, hmessages] at hsound
  obtain ⟨kept, hkept, hkeeps⟩ := hsound
  have hstart : (Guest.link memory records).Running kept records [] := ⟨rfl, rfl, rfl, rfl, hkept⟩
  obtain ⟨second, hcurrent, hsecond⟩ := hstart.fetched hkeeps (hsizes .current)
  obtain ⟨third, hprevious, hthird⟩ := hsecond.fetched hkeeps (hsizes .previous)
  obtain ⟨calls, hcalls, herrors⟩ := hconcluded.keptAs hintegral
  have hfinal := hthird.sendAll hkeeps (fun _ hmem => hmem) hcalls
  have hrun := hconcluded.invoke_eq hcurrent.fetch_eq hprevious.fetch_eq
  have hkeptCalls :
      (sendAll (Guest.boundary placement) (messages ++ outcome.closing) third).host.calls = calls :=
    hfinal.calls
  refine ⟨outcome, _, _, hreference, hrun, hfinal.fault, ?_, ?_, ?_⟩
  · rw [hmessages, hkeptCalls]
    exact hcalls.received
  · rw [hkeptCalls]
    exact herrors
  · rw [hkeptCalls]
    exact passed_eq outcome calls herrors

/-- Rules that refuse every record and clear its price. -/
def refuse (_current _previous : Json.Value) : Intents :=
  (Intents.empty.error "Price" "refused").clear "Price"

/-- A record that is refused, in a memory of one page. The refusal and the cleared price are kept, and the refusal is
    counted. -/
theorem invoke_linked_refuse :
    ∃ log guest,
      invoke (RecordPair.mk "5" "").served.boundary.logged Schema.value refuse ⟨[], ()⟩ =
        (.completed 1, ⟨log, ()⟩) ∧
      invoke (Guest.boundary (.startingAt 1024)) Schema.value refuse (Guest.link (.zeros 1) ⟨"5", ""⟩) =
        (.completed 1, guest) ∧
      guest.fault? = none ∧
      log.filterMap Exchange.message? = [.error "Price" "refused", .set "Price" (Text.bytes "null")] ∧
      guest.host.calls = [.error "Price" "refused", .set "Price" .null] ∧
      guest.host.calls.countP HostCall.isError = 1 := by
  have hcompleted :
      (invoke (RecordPair.mk "5" "").served.boundary.logged Schema.value refuse ⟨[], ()⟩).1 = .completed 1 := rfl
  have hmessages :
      (invoke (RecordPair.mk "5" "").served.boundary.logged Schema.value refuse ⟨[], ()⟩).2.log.filterMap
        Exchange.message? = [.error "Price" "refused", .set "Price" (Text.bytes "null")] :=
    rfl
  have hsound : (Placement.startingAt 1024).Sound (.zeros 1) ⟨"5", ""⟩
      [.error "Price" "refused", .set "Price" (Text.bytes "null")] := by
    refine Placement.startingAt_sound ?_ ?_
    · refine List.forall_mem_cons.mpr ⟨?_, List.forall_mem_singleton.mpr ?_⟩
      · exact ⟨by decide, by decide⟩
      · exact ⟨by decide, by decide⟩
    · intro snapshot
      cases snapshot
      · exact ⟨by decide, by decide⟩
      · exact ⟨by decide, by decide⟩
  obtain ⟨outcome, log, guest, hreference, hrun, hfault, hreceived, herrors, -⟩ :=
    invoke_linked (.startingAt 1024) (.zeros 1) ⟨"5", ""⟩ Schema.value refuse
      (fun snapshot => by cases snapshot <;> decide)
      (fun current previous =>
        List.forall_mem_cons.mpr ⟨trivial, List.forall_mem_singleton.mpr fun _ => trivial⟩)
      (hmessages ▸ hsound)
  rw [hreference] at hcompleted hmessages
  obtain rfl : outcome = .completed 1 := hcompleted
  have hlog : log.filterMap Exchange.message? = [.error "Price" "refused", .set "Price" (Text.bytes "null")] :=
    hmessages
  rw [hlog] at hreceived
  have hcalls : guest.host.calls = [.error "Price" "refused", .set "Price" .null] :=
    ((List.map_inj_right fun _ _ => Option.some.inj).mp hreceived).symm
  exact ⟨log, guest, hreference, hrun, hfault, hlog, hcalls, (herrors 1 rfl).symm⟩

end RecordGate
