import RecordGate.Invocation

/-! # Replaying intents

Replaying sends one message for each intent, in order, up to the first intent that cannot be sent. What is
sent and how the replay ends depends on the intents alone (`Replayed`), and is the same over every host. -/

namespace RecordGate

variable {σ : Type}

/-- The message that replays an intent. There is none for a value that is an array or an object. -/
def Intent.message? : Intent → Option Message
  | .reportError field message => some (.error field message)
  | .reportWarning field message => some (.warn field message)
  | .setRequired field required => some (.setRequired field (if required then 1 else 0))
  | .setDisplay field display => some (.setDisplay field (if display then 1 else 0))
  | .setValue field value => if value.isComposite then none else some (.set field (Text.bytes value.text))
  | .diagnostic text => some (.diagnostic text)

/-- What a replay sends and how it ends. -/
inductive Replayed : List Intent → List Message → Except TransferError Nat → Prop where
  /-- Every intent has a message; the errors among them are counted. -/
  | all {intents : List Intent} {messages : List Message} :
      intents.map Intent.message? = messages.map some →
      Replayed intents messages (.ok (intents.countP Intent.isError))
  /-- The replay stops at the first intent that has no message. -/
  | upTo {before after : List Intent} {field : String} {value : Json.Value} {messages : List Message} :
      before.map Intent.message? = messages.map some → value.isComposite = true →
      Replayed (before ++ .setValue field value :: after) messages (.error (.notScalar field))

/-! ### Sending messages -/

/-- Sends messages one behind the other. -/
def sendAll (boundary : Boundary σ) (messages : List Message) (s : σ) : σ :=
  messages.foldl (fun s message => boundary.send message s) s

theorem sendAll_cons (boundary : Boundary σ) (message : Message) (rest : List Message) (s : σ) :
    sendAll boundary (message :: rest) s = sendAll boundary rest (boundary.send message s) :=
  rfl

theorem sendAll_append (boundary : Boundary σ) (first second : List Message) (s : σ) :
    sendAll boundary (first ++ second) s = sendAll boundary second (sendAll boundary first s) :=
  List.foldl_append

theorem sendAll_logged (boundary : Boundary σ) (messages : List Message) (s : Logged σ) :
    sendAll boundary.logged messages s =
      ⟨s.log ++ messages.map .sent, sendAll boundary messages s.host⟩ := by
  induction messages generalizing s with
  | nil => simp [sendAll]
  | cons message rest ih =>
    rw [sendAll_cons, sendAll_cons, ih]
    simp [Boundary.logged]

theorem filterMap_message?_sent (messages : List Message) :
    (messages.map Exchange.sent).filterMap Exchange.message? = messages := by
  rw [List.filterMap_map]
  exact List.filterMap_some

/-! ### The replay -/

theorem Intent.send_of_message? {intent : Intent} {message : Message} (h : intent.message? = some message)
    (boundary : Boundary σ) (s : σ) : intent.send boundary s = (.ok (), boundary.send message s) := by
  cases intent with
  | setValue field value =>
    simp only [Intent.message?] at h
    by_cases hcomposite : value.isComposite = true
    · rw [if_pos hcomposite] at h
      cases h
    · rw [if_neg hcomposite] at h
      cases h
      show sendValue boundary field (.json value) s = _
      simp only [sendValue, payload, Datum.encode]
      rw [if_neg hcomposite]
  | _ => cases h; rfl

theorem Intent.message?_eq_none {intent : Intent} (h : intent.message? = none) :
    ∃ field value, intent = .setValue field value ∧ value.isComposite = true := by
  cases intent with
  | setValue field value =>
    by_cases hcomposite : value.isComposite = true
    · exact ⟨field, value, rfl, hcomposite⟩
    · simp only [Intent.message?] at h
      rw [if_neg hcomposite] at h
      cases h
  | _ => cases h

/-- Intents that have messages are replayed before whatever follows them. -/
theorem report_append (boundary : Boundary σ) {before : List Intent} {messages : List Message}
    (h : before.map Intent.message? = messages.map some) (after : List Intent) (s : σ) :
    report boundary (before ++ after) s =
      ((report boundary after (sendAll boundary messages s)).1.map (· + before.countP Intent.isError),
        (report boundary after (sendAll boundary messages s)).2) := by
  induction before generalizing messages s with
  | nil =>
    cases messages with
    | nil =>
      show report boundary after s = ((report boundary after s).1.map (· + 0), (report boundary after s).2)
      rcases report boundary after s with ⟨error | count, t⟩ <;> rfl
    | cons => cases h
  | cons intent before ih =>
    cases messages with
    | nil => cases h
    | cons message messages =>
      simp only [List.map_cons, List.cons.injEq] at h
      rw [List.cons_append, report, Intent.send_of_message? h.1, sendAll_cons]
      dsimp only
      rw [ih h.2]
      rcases report boundary after (sendAll boundary messages (boundary.send message s)) with ⟨error | count, t⟩
      · rfl
      · simp only [Except.map, List.countP_cons, Nat.add_assoc]

/-- The replay does what its course says, over any host. -/
theorem Replayed.report_eq {intents : List Intent} {messages : List Message}
    {result : Except TransferError Nat} (h : Replayed intents messages result) (boundary : Boundary σ) (s : σ) :
    report boundary intents s = (result, sendAll boundary messages s) := by
  cases h with
  | all hall =>
    have heq := report_append boundary hall [] s
    rw [List.append_nil] at heq
    rw [heq]
    simp [report, Except.map]
  | @upTo before after field value messages hbefore hcomposite =>
    have hstop : ∀ t, report boundary (.setValue field value :: after) t = (.error (.notScalar field), t) := by
      intro t
      simp [report, Intent.send, sendValue, payload, Datum.encode, hcomposite]
    rw [report_append boundary hbefore, hstop]
    rfl

theorem exists_replayed (intents : List Intent) : ∃ messages result, Replayed intents messages result := by
  induction intents with
  | nil => exact ⟨[], _, .all rfl⟩
  | cons intent rest ih =>
    cases hmessage : intent.message? with
    | none =>
      obtain ⟨field, value, rfl, hcomposite⟩ := Intent.message?_eq_none hmessage
      have hbefore : [].map Intent.message? = [].map some := rfl
      exact ⟨[], _, .upTo hbefore hcomposite⟩
    | some message =>
      obtain ⟨messages, result, h⟩ := ih
      cases h with
      | all hall =>
        refine ⟨message :: messages, _, .all ?_⟩
        rw [List.map_cons, List.map_cons, hmessage, hall]
      | @upTo before after field value messages hbefore hcomposite =>
        have hbefore : (intent :: before).map Intent.message? = (message :: messages).map some := by
          rw [List.map_cons, List.map_cons, hmessage, hbefore]
        exact ⟨message :: messages, _, .upTo hbefore hcomposite⟩

end RecordGate
