import RecordGate.Boundary.Served
import RecordGate.Proofs.Boundary.Presenting
import RecordGate.Proofs.Invocation.Composing

/-! # The last statement about a field

Each step adds its intents behind those that are there already (`IntentStep.entries_apply`), and says something of the
parts of one field at most (`IntentStep.states`), however many intents it adds. So once a list that steps have built is
replayed, each part of a field on the host is what the last step said that said anything of it. The main statement is
`last_statement_stands`. -/

namespace RecordGate
open Json

/-! ### Lists that steps build -/

/-- The value that a control states. There is none if the value is kept. -/
def ValueControl.stated? : ValueControl → Option Value
  | .keep => none
  | .clear => some .null
  | .set value => some value

/-- A control restates both flags, and then the value if it states one. -/
theorem Intents.entries_control (built : Intents) (field : String) (whole : FieldControl) :
    (built.control field whole).entries = built.entries ++ .setRequired field whole.required ::
      .setDisplay field whole.display :: (whole.value.stated?.map (Intent.setValue field)).toList := by
  obtain ⟨isRequired, isShown, value⟩ := whole
  cases value <;> simp [control, clear, set, display, required, push, ValueControl.stated?]

/-- A step adds the intents that it builds alone, and alters none. -/
theorem IntentStep.entries_apply (built : Intents) (step : IntentStep) :
    (step.apply built).entries = built.entries ++ (Intents.build [step]).entries := by
  cases step with
  | control field whole =>
    show (built.control field whole).entries = built.entries ++ (Intents.empty.control field whole).entries
    rw [Intents.entries_control, Intents.entries_control]
    rfl
  | _ => rfl

theorem Intents.entries_foldl (steps : List IntentStep) (built : Intents) :
    (steps.foldl IntentStep.apply built).entries =
      built.entries ++ steps.flatMap fun step => (Intents.build [step]).entries := by
  induction steps generalizing built with
  | nil => exact (List.append_nil _).symm
  | cons step rest ih =>
    rw [List.foldl_cons, ih, step.entries_apply, List.flatMap_cons, List.append_assoc]

theorem Intents.entries_build (steps : List IntentStep) :
    (Intents.build steps).entries = steps.flatMap fun step => (Intents.build [step]).entries :=
  entries_foldl steps .empty

theorem Intents.entries_build_append (earlier later : List IntentStep) :
    (Intents.build (earlier ++ later)).entries = (Intents.build earlier).entries ++ (Intents.build later).entries := by
  rw [entries_build, entries_build, entries_build, List.flatMap_append]

/-! ### What intents and steps say -/

/-- What an intent says about a field. -/
def Intent.states (field : String) : Intent → Statement Value
  | .setRequired about flag => if about = field then { required := some flag } else {}
  | .setDisplay about flag => if about = field then { display := some flag } else {}
  | .setValue about value => if about = field then { value := some value } else {}
  | .reportError _ _ | .reportWarning _ _ | .diagnostic _ => {}

/-- What a step says about a field, in one or in several intents. -/
def IntentStep.states (field : String) : IntentStep → Statement Value
  | .required about flag => if about = field then { required := some flag } else {}
  | .display about flag => if about = field then { display := some flag } else {}
  | .set about value => if about = field then { value := some value } else {}
  | .clear about => if about = field then { value := some .null } else {}
  | .control about whole =>
    if about = field then ⟨some whole.required, some whole.display, whole.value.stated?⟩ else {}
  | .push intent => intent.states field
  | .error _ _ | .warning _ _ | .diagnostic _ => {}

/-- The field that a step names, if it names one. -/
def IntentStep.field? : IntentStep → Option String
  | .error field _ | .warning field _ | .required field _ | .display field _ | .set field _ | .clear field
  | .control field _ => some field
  | .push intent => intent.field?
  | .diagnostic _ => none

theorem Intent.states_of_field? {intent : Intent} {field : String} (h : intent.field? ≠ some field) :
    intent.states field = {} := by
  cases intent with
  | setRequired about | setDisplay about | setValue about => exact if_neg fun heq => h (congrArg some heq)
  | reportError | reportWarning | diagnostic => rfl

/-- A step says nothing about a field that it does not name. -/
theorem IntentStep.states_of_field? {step : IntentStep} {field : String} (h : step.field? ≠ some field) :
    step.states field = {} := by
  cases step with
  | required about | display about | set about | clear about | control about =>
    exact if_neg fun heq => h (congrArg some heq)
  | push intent => exact Intent.states_of_field? h
  | error | warning | diagnostic => rfl

/-! ### Statements on a host -/

section
variable {σ α : Type} {boundary : Boundary σ} {read : List UInt8 → Option α} {shown : σ → String → Presentation α}
  {field : String}

/-- What a host reads from the text of a value. -/
def readText (read : List UInt8 → Option α) (value : Value) : Option α :=
  read (Text.bytes value.text)

theorem flag_bne_zero (flag : Bool) : ((if flag then 1 else 0 : Int32) != 0) = flag := by
  cases flag <;> rfl

/-- A message says what its intent says, with the value as the host reads it. -/
theorem Intent.states_of_message? {intent : Intent} {message : Message} (h : intent.message? = some message) :
    message.states read field = (intent.states field).reading (readText read) := by
  cases intent with
  | setValue about value =>
    simp only [Intent.message?] at h
    split at h
    · cases h
    · cases h
      simp only [Message.states, Intent.states]
      split <;> rfl
  | setRequired about flag | setDisplay about flag =>
    cases h
    simp only [Message.states, Intent.states, flag_bne_zero]
    split <;> rfl
  | reportError | reportWarning | diagnostic =>
    cases h
    rfl

/-- The intents that a step adds leave of a field what the step says of it. -/
theorem IntentStep.after_states (step : IntentStep) (before : Presentation α) :
    before.after ((Intents.build [step]).entries.map fun intent => (intent.states field).reading (readText read)) =
      ((step.states field).reading (readText read)).onto before := by
  cases step with
  | control about whole =>
    show before.after ((Intents.empty.control about whole).entries.map _) = _
    rw [Intents.entries_control]
    obtain ⟨required, display, value⟩ := whole
    by_cases habout : about = field <;> cases value <;>
      simp [Intents.empty, IntentStep.states, Intent.states, ValueControl.stated?, Presentation.after, Statement.onto,
        Statement.reading, habout]
  | _ => rfl

theorem after_build (steps : List IntentStep) (before : Presentation α) :
    before.after ((Intents.build steps).entries.map fun intent => (intent.states field).reading (readText read)) =
      before.after ((steps.map (IntentStep.states field)).map (Statement.reading (readText read))) := by
  rw [Intents.entries_build]
  induction steps generalizing before with
  | nil => rfl
  | cons step rest ih =>
    rw [List.flatMap_cons, List.map_append, Presentation.after_append, step.after_states, ih]
    rfl

/-- A replay of what steps have built leaves of a field what the steps say of it, one behind the other. -/
theorem Boundary.Presents.report_build (h : boundary.Presents read shown) {steps : List IntentStep} {s t : σ}
    {count : Nat} (hreport : report boundary (Intents.build steps).entries s = (.ok count, t)) (field : String) :
    shown t field =
      (shown s field).after ((steps.map (IntentStep.states field)).map (Statement.reading (readText read))) := by
  obtain ⟨messages, result, hreplayed⟩ := exists_replayed (Intents.build steps).entries
  rw [hreplayed.report_eq, Prod.mk.injEq] at hreport
  obtain ⟨hresult, rfl⟩ := hreport
  have hsent := hreplayed.sent
  rw [(hreplayed.eq_ok_iff.mp hresult).1] at hsent
  rw [h.sendAll, map_messages hsent fun _ _ => Intent.states_of_message?, after_build]

/-- Steps that do not name a field leave it as it was. -/
theorem after_unnamed {steps : List IntentStep} (h : ∀ step ∈ steps, step.field? ≠ some field)
    (before : Presentation α) :
    before.after ((steps.map (IntentStep.states field)).map (Statement.reading (readText read))) = before := by
  induction steps with
  | nil => rfl
  | cons step rest ih =>
    obtain ⟨hstep, hrest⟩ := List.forall_mem_cons.mp h
    rw [List.map_cons, List.map_cons, IntentStep.states_of_field? hstep]
    exact ih hrest

/-- What is built is replayed whole only if what was built before is. -/
theorem report_build_before {earlier later : List IntentStep} {s t : σ} {count : Nat}
    (h : report boundary (Intents.build (earlier ++ later)).entries s = (.ok count, t)) :
    ∃ before u, report boundary (Intents.build earlier).entries s = (.ok before, u) := by
  rw [Intents.entries_build_append, report_append_eq] at h
  rcases hearlier : report boundary (Intents.build earlier).entries s with ⟨error | before, u⟩
  · rw [hearlier] at h
    cases h
  · exact ⟨before, u, rfl⟩

/-- What a control leaves of a value: the value that was there, or what the host reads of the one that is stated. -/
def ValueControl.Leaves (read : List UInt8 → Option α) (before after : α) : ValueControl → Prop
  | .keep => after = before
  | .clear => ∀ a, readText read .null = some a → after = a
  | .set value => ∀ a, readText read value = some a → after = a

/-- A control that no later step names the field of leaves the flags and the value that it states, and a value that it
    keeps as the steps before it left it. -/
theorem Boundary.Presents.control_stands (h : boundary.Presents read shown) {earlier later : List IntentStep}
    {whole : FieldControl} (hlater : ∀ step ∈ later, step.field? ≠ some field) {s t : σ} {count : Nat}
    (hreport : report boundary (Intents.build (earlier ++ .control field whole :: later)).entries s = (.ok count, t)) :
    (shown t field).required = whole.required ∧ (shown t field).display = whole.display ∧
    ∃ before u, report boundary (Intents.build earlier).entries s = (.ok before, u) ∧
      whole.value.Leaves read (shown u field).value (shown t field).value := by
  obtain ⟨before, u, hearlier⟩ := report_build_before hreport
  have hafter := h.report_build hreport field
  rw [List.map_append, List.map_append, Presentation.after_append, ← h.report_build hearlier field, List.map_cons,
    List.map_cons, Presentation.after_cons, after_unnamed hlater] at hafter
  have hstated : IntentStep.states field (.control field whole) =
      ⟨some whole.required, some whole.display, whole.value.stated?⟩ := if_pos rfl
  rw [hafter, hstated]
  refine ⟨rfl, rfl, before, u, hearlier, ?_⟩
  cases hvalue : whole.value with
  | keep => rfl
  | clear =>
    intro a ha
    show ((some Value.null).bind (readText read)).getD _ = a
    rw [Option.bind_some, ha, Option.getD_some]
  | set value =>
    intro a ha
    show ((some value).bind (readText read)).getD _ = a
    rw [Option.bind_some, ha, Option.getD_some]

end

/-! ### The main statement -/

/-- The list that steps build is what each of them builds alone, one behind the other, and no step alters what was
    there. On a host that presents its fields, a replay of the whole list leaves of each flag and of the value of a
    field what the last step stated that stated it, and what was there at first if no step did. After a control that
    no later step names the field of, these are the flags and the value of the control, and a value that it keeps is
    the one before it. A field that no step names stays as it was. A host that keeps the fields is of this kind, and
    reads null, flags, integers and strings as what they are. -/
theorem last_statement_stands (steps : List IntentStep) :
    (Intents.build steps).entries = steps.flatMap (fun step => (Intents.build [step]).entries) ∧
    (∀ (built : Intents) (step : IntentStep),
      (step.apply built).entries = built.entries ++ (Intents.build [step]).entries) ∧
    (∀ {σ α : Type} {boundary : Boundary σ} {read : List UInt8 → Option α} {shown : σ → String → Presentation α},
      boundary.Presents read shown → ∀ (s t : σ) (count : Nat) (field : String),
      report boundary (Intents.build steps).entries s = (.ok count, t) →
      let said := steps.map (IntentStep.states field)
      (shown t field).required = (Statement.last Statement.required said).getD (shown s field).required ∧
      (shown t field).display = (Statement.last Statement.display said).getD (shown s field).display ∧
      (Statement.last Statement.value said = none → (shown t field).value = (shown s field).value) ∧
      (∀ value a, Statement.last Statement.value said = some value → readText read value = some a →
        (shown t field).value = a) ∧
      (∀ earlier whole later, steps = earlier ++ .control field whole :: later →
        (∀ step ∈ later, step.field? ≠ some field) →
        (shown t field).required = whole.required ∧ (shown t field).display = whole.display ∧
        ∃ before u, report boundary (Intents.build earlier).entries s = (.ok before, u) ∧
          whole.value.Leaves read (shown u field).value (shown t field).value) ∧
      ((∀ step ∈ steps, step.field? ≠ some field) → shown t field = shown s field)) ∧
    (∀ {σ : Type} (boundary : Boundary σ),
      boundary.keeping.Presents parsed fun s field => (s.fields field).presentation) ∧
    ∀ value : Value, value.isComposite = false → value.Integral → readText parsed value = some value := by
  refine ⟨Intents.entries_build steps, IntentStep.entries_apply, ?_, Boundary.keeping_presents,
    fun _ => parsed_text⟩
  intro σ α boundary read shown hshown s t count field hreport said
  have hafter := hshown.report_build hreport field
  have hparts := hafter
  rw [Statement.after_reading] at hparts
  refine ⟨by rw [hparts], by rw [hparts], fun hnone => ?_, fun value a hvalue hread => ?_, ?_, fun hunnamed => ?_⟩
  · rw [hparts, Statement.last_reading_value_none hnone]
    rfl
  · rw [hparts, Statement.last_reading_value_some hvalue hread]
    rfl
  · rintro earlier whole later rfl hlater
    exact hshown.control_stands hlater hreport
  · rw [hafter, after_unnamed hunnamed]

/-- A host that keeps the fields and has no records. -/
def keeper : Boundary (Keeping Unit) := (Served.boundary ⟨[], [], [], []⟩).keeping

/-- A value is entered and then kept by a control, between reports about other fields. -/
def restated : List IntentStep :=
  [.set "ClosePrice" (.string "9"), .error "ListPrice" "low", .control "ClosePrice" .mandatory,
    .warning "Remarks" "long"]

/-- The control states the flags and keeps the value that was entered, and no other field is touched. -/
theorem last_statement_stands_kept :
    let s : Keeping Unit := ⟨fun _ => ⟨true, false, .int 5⟩, ()⟩
    let t := (report keeper (Intents.build restated).entries s).2
    (t.fields "ClosePrice").required = true ∧ (t.fields "ClosePrice").display = true ∧
      (t.fields "ClosePrice").value = .string "9" ∧
      (t.fields "Bedrooms").presentation = ⟨true, false, .int 5⟩ := by
  intro s t
  obtain ⟨-, -, hstands, hkeeps, hreads⟩ := last_statement_stands restated
  have hreport : report keeper (Intents.build restated).entries s = (.ok 1, t) := Prod.ext rfl rfl
  have hshown := hkeeps (Served.boundary ⟨[], [], [], []⟩)
  obtain ⟨-, -, -, hvalue, hcontrol, -⟩ := hstands hshown s t 1 "ClosePrice" hreport
  obtain ⟨-, -, -, -, -, hunnamed⟩ := hstands hshown s t 1 "Bedrooms" hreport
  obtain ⟨hrequired, hdisplay, -⟩ := hcontrol [.set "ClosePrice" (.string "9"), .error "ListPrice" "low"]
    .mandatory [.warning "Remarks" "long"] rfl (by decide)
  exact ⟨hrequired, hdisplay, hvalue (.string "9") _ rfl (hreads _ rfl trivial), hunnamed (by decide)⟩

end RecordGate
