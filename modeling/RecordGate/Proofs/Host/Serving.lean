import RecordGate.Proofs.Host.Requirement

/-! # What the host functions accept and what they do

`HostState.requirements` lists what a call needs: that the host can see the memory, that each argument lies
inside it, that texts are texts and that a value is JSON. `Granted` says what the host does for a call that
meets them all. The main statement, `serve_exact`, is that the host functions do exactly this: a call
succeeds where every requirement is met, it fails for the first one that is not, and a call that fails leaves
no trace. -/

namespace RecordGate.Host

/-- The bytes that are passed as a length and a pointer. -/
def Block.passed (block : Block) (length pointer : Int32) : List UInt8 :=
  block.read pointer.toInt.toNat length.toInt.toNat

/-! ### Requirements -/

/-- An argument lies inside the block. -/
def Block.rangeRequirements (block : Block) (argument : String) (length pointer : Int32) : List Requirement := [
  ⟨0 ≤ length.toInt, .range argument .negativeLength⟩,
  ⟨0 ≤ pointer.toInt, .range argument .negativePointer⟩,
  ⟨pointer.toInt + length.toInt ≤ block.size, .range argument .outOfBounds⟩]

/-- An argument lies inside the block and is the encoding of a text. -/
def Block.textRequirements (block : Block) (argument : String) (length pointer : Int32) : List Requirement :=
  block.rangeRequirements argument length pointer ++
    [⟨∃ text, Text.bytes text = block.passed length pointer, .notText argument⟩]

/-- What a call needs once the host can see the memory, in the order in which it is checked. -/
def HostState.argumentRequirements (s : HostState) : HostRequest Int32 → List Requirement
  | .fetch snapshot length pointer =>
    s.memory.rangeRequirements snapshot.name length pointer ++
      [⟨(s.records.bytes snapshot).length < 0x80000000, .tooLarge snapshot.name⟩]
  | .diagnostic length pointer => s.memory.rangeRequirements "diagnostic" length pointer
  | .error fieldLength fieldPointer messageLength messagePointer
  | .warn fieldLength fieldPointer messageLength messagePointer =>
    s.memory.textRequirements "field" fieldLength fieldPointer ++
      s.memory.textRequirements "message" messageLength messagePointer
  | .setRequired length pointer _ | .setDisplay length pointer _ =>
    s.memory.textRequirements "field" length pointer
  | .set fieldLength fieldPointer valueLength valuePointer =>
    s.memory.textRequirements "field" fieldLength fieldPointer ++
      (s.memory.textRequirements "value" valueLength valuePointer ++
        [⟨∃ value, Json.parse (s.memory.passed valueLength valuePointer) = .ok value,
          .notJson (Text.decodeLossy (s.memory.passed fieldLength fieldPointer))⟩])

/-- What a call needs. -/
def HostState.requirements (s : HostState) (request : HostRequest Int32) : List Requirement :=
  ⟨s.exported = true, .noMemory⟩ :: s.argumentRequirements request

/-! ### Effects -/

/-- The call that a request makes, with the arguments that lie in the memory. -/
inductive Carried (memory : Memory) : HostRequest Int32 → HostCall → Prop where
  | diagnostic {length pointer : Int32} :
      Carried memory (.diagnostic length pointer)
        (.diagnostic (Text.decodeLossy (memory.passed length pointer)))
  | error {fl fp ml mp : Int32} {field message : String} :
      Text.bytes field = memory.passed fl fp → Text.bytes message = memory.passed ml mp →
      Carried memory (.error fl fp ml mp) (.error field message)
  | warn {fl fp ml mp : Int32} {field message : String} :
      Text.bytes field = memory.passed fl fp → Text.bytes message = memory.passed ml mp →
      Carried memory (.warn fl fp ml mp) (.warn field message)
  | setRequired {length pointer value : Int32} {field : String} :
      Text.bytes field = memory.passed length pointer →
      Carried memory (.setRequired length pointer value) (.setRequired field (value != 0))
  | setDisplay {length pointer value : Int32} {field : String} :
      Text.bytes field = memory.passed length pointer →
      Carried memory (.setDisplay length pointer value) (.setDisplay field (value != 0))
  | set {fl fp vl vp : Int32} {field : String} {value : Json.Value} :
      Text.bytes field = memory.passed fl fp → Json.parse (memory.passed vl vp) = .ok value →
      Carried memory (.set fl fp vl vp) (.set field value)

/-- What the host does for a call that meets its requirements: its answer, if it has one, and the state
    after it. A record is copied whole or not at all; any other call is kept behind those before it. -/
inductive Granted (s : HostState) : HostRequest Int32 → Option Int32 → HostState → Prop where
  | copied {snapshot : Snapshot} {length pointer : Int32} :
      (s.records.bytes snapshot).length ≤ length.toInt.toNat →
      Granted s (.fetch snapshot length pointer) (some (Int32.ofNat (s.records.bytes snapshot).length))
        { s with memory := s.memory.write pointer.toInt.toNat (s.records.bytes snapshot) }
  | measured {snapshot : Snapshot} {length pointer : Int32} :
      length.toInt.toNat < (s.records.bytes snapshot).length →
      Granted s (.fetch snapshot length pointer) (some (Int32.ofNat (s.records.bytes snapshot).length)) s
  | recorded {request : HostRequest Int32} {call : HostCall} :
      Carried s.memory request call → Granted s request none { s with calls := s.calls ++ [call] }

theorem Carried.unique {memory : Memory} {request : HostRequest Int32} {call call' : HostCall}
    (h : Carried memory request call) (h' : Carried memory request call') : call = call' := by
  cases h with
  | diagnostic => cases h'; rfl
  | error hf hm =>
    cases h' with
    | error hf' hm' => rw [Text.bytes_injective (hf.trans hf'.symm), Text.bytes_injective (hm.trans hm'.symm)]
  | warn hf hm =>
    cases h' with
    | warn hf' hm' => rw [Text.bytes_injective (hf.trans hf'.symm), Text.bytes_injective (hm.trans hm'.symm)]
  | setRequired hf =>
    cases h' with
    | setRequired hf' => rw [Text.bytes_injective (hf.trans hf'.symm)]
  | setDisplay hf =>
    cases h' with
    | setDisplay hf' => rw [Text.bytes_injective (hf.trans hf'.symm)]
  | set hf hv =>
    cases h' with
    | set hf' hv' =>
      rw [hv] at hv'
      cases hv'
      rw [Text.bytes_injective (hf.trans hf'.symm)]

theorem Granted.unique {s t t' : HostState} {request : HostRequest Int32} {answer answer' : Option Int32}
    (h : Granted s request answer t) (h' : Granted s request answer' t') : answer = answer' ∧ t = t' := by
  cases h with
  | copied hfit =>
    cases h' with
    | copied => exact ⟨rfl, rfl⟩
    | measured hless => omega
    | recorded hcall => cases hcall
  | measured hless =>
    cases h' with
    | copied hfit => omega
    | measured => exact ⟨rfl, rfl⟩
    | recorded hcall => cases hcall
  | recorded hcall =>
    cases h' with
    | copied => cases hcall
    | measured => cases hcall
    | recorded hcall' => exact ⟨rfl, by rw [hcall.unique hcall']⟩

/-! ### Checks -/

theorem range_checked (block : Block) (argument : String) (length pointer : Int32) :
    Checked (block.rangeRequirements argument length pointer) (block.range argument length pointer)
      fun range => range = ⟨pointer.toInt.toNat, length.toInt.toNat⟩ := by
  unfold Block.range Range.check
  by_cases hlength : 0 ≤ length.toInt
  · by_cases hpointer : 0 ≤ pointer.toInt
    · rw [if_neg (by rw [Int32.lt_iff_toInt_lt, Int32.toInt_zero]; omega),
        if_neg (by rw [Int32.lt_iff_toInt_lt, Int32.toInt_zero]; omega)]
      have hstop : (⟨pointer.toInt.toNat, length.toInt.toNat⟩ : Range).stop =
          pointer.toInt.toNat + length.toInt.toNat := rfl
      by_cases hinside : pointer.toInt + length.toInt ≤ block.size
      · rw [if_neg (by rw [hstop]; omega)]
        refine ⟨?_, rfl⟩
        unfold Block.rangeRequirements
        simp only [allMet_cons]
        exact ⟨hlength, hpointer, hinside, List.forall_mem_nil _⟩
      · rw [if_pos (by rw [hstop]; omega)]
        exact .later hlength (.later hpointer (.here hinside))
    · rw [if_neg (by rw [Int32.lt_iff_toInt_lt, Int32.toInt_zero]; omega),
        if_pos (by rw [Int32.lt_iff_toInt_lt, Int32.toInt_zero]; omega)]
      exact .later hlength (.here hpointer)
  · rw [if_pos (by rw [Int32.lt_iff_toInt_lt, Int32.toInt_zero]; omega)]
    exact .here hlength

theorem anyText_checked (block : Block) (argument : String) (length pointer : Int32) :
    Checked (block.rangeRequirements argument length pointer) (block.anyText argument length pointer)
      fun text => text = Text.decodeLossy (block.passed length pointer) := by
  have hrange := range_checked block argument length pointer
  unfold Block.anyText
  cases hresult : block.range argument length pointer with
  | error fault =>
    rw [hresult] at hrange
    exact hrange
  | ok range =>
    rw [hresult] at hrange
    obtain ⟨hmet, rfl⟩ := hrange
    exact ⟨hmet, rfl⟩

theorem text_checked (block : Block) (argument : String) (length pointer : Int32) :
    Checked (block.textRequirements argument length pointer) (block.text argument length pointer)
      fun text => Text.bytes text = block.passed length pointer := by
  have hrange := range_checked block argument length pointer
  unfold Block.text
  cases hresult : block.range argument length pointer with
  | error fault =>
    rw [hresult] at hrange
    exact hrange.append
  | ok range =>
    rw [hresult] at hrange
    obtain ⟨hmet, rfl⟩ := hrange
    have hslice : block.slice ⟨pointer.toInt.toNat, length.toInt.toNat⟩ = block.passed length pointer := rfl
    dsimp only [bind, Except.bind]
    rw [hslice]
    cases hdecode : Text.decode? (block.passed length pointer) with
    | none =>
      refine FirstUnmet.append_of_allMet hmet (.here ?_)
      rintro ⟨text, htext⟩
      exact Text.decode?_eq_none_iff.mp hdecode text htext
    | some text =>
      have htext := Text.bytes_of_decode? hdecode
      refine ⟨allMet_append.mpr ⟨hmet, ?_⟩, htext⟩
      exact List.forall_mem_singleton.mpr ⟨text, htext⟩

theorem visibleMemory_judged (s : HostState) :
    Judged s [⟨s.exported = true, .noMemory⟩] HostAction.visibleMemory
      fun memory t => t = s ∧ memory = s.memory := by
  refine .single (fun hexported => ⟨s.memory, s, ?_, rfl, rfl⟩) fun hhidden => ?_
  · show (if s.exported then (pure s.memory : HostAction Memory) else throw .noMemory).run.run s = _
    rw [if_pos hexported]
    rfl
  · show (if s.exported then (pure s.memory : HostAction Memory) else throw .noMemory).run.run s = _
    rw [if_neg hhidden]
    rfl

theorem record_judged (s : HostState) {request : HostRequest Int32} {call : HostCall}
    (hcall : Carried s.memory request call) : Judged s [] (HostAction.record call) (Granted s request) :=
  ⟨List.forall_mem_nil _, .recorded hcall⟩

/-! ### Calls -/

theorem copy_judged (s : HostState) (snapshot : Snapshot) (length pointer : Int32) :
    Judged s (s.argumentRequirements (.fetch snapshot length pointer))
      (HostAction.copy s.memory snapshot length pointer) (Granted s (.fetch snapshot length pointer)) := by
  refine .bind (.lift (range_checked ..)) fun range hrange => ?_
  subst hrange
  refine .single (fun hsmall => ?_) fun hlarge => ?_
  · rw [run_get_bind, if_neg (Nat.not_le.mpr hsmall)]
    by_cases hfit : (s.records.bytes snapshot).length ≤ length.toInt.toNat
    · rw [if_pos hfit]
      exact ⟨_, _, rfl, .copied hfit⟩
    · rw [if_neg hfit]
      exact ⟨_, _, rfl, .measured (Nat.not_le.mp hfit)⟩
  · rw [run_get_bind, if_pos (Nat.not_lt.mp hlarge)]
    rfl

/-- The value is parsed last, from the bytes of its text. -/
theorem set_judged (s : HostState) {fl fp vl vp : Int32} {field text : String}
    (hfield : Text.bytes field = s.memory.passed fl fp) (htext : Text.bytes text = s.memory.passed vl vp) :
    Judged s [⟨∃ value, Json.parse (s.memory.passed vl vp) = .ok value,
        .notJson (Text.decodeLossy (s.memory.passed fl fp))⟩]
      (match Json.parse (Text.bytes text) with
        | .ok value => HostAction.record (.set field value)
        | .error _ => throw (.notJson field))
      (Granted s (.set fl fp vl vp)) := by
  rw [htext]
  refine .single (fun ⟨value, hvalue⟩ => ?_) fun hnone => ?_
  · rw [hvalue]
    exact ⟨_, _, rfl, .recorded (.set hfield hvalue)⟩
  · rw [← hfield, Text.decodeLossy_bytes]
    cases hparse : Json.parse (s.memory.passed vl vp) with
    | ok value => exact absurd ⟨value, hparse⟩ hnone
    | error fault => rfl

/-- Every call is judged by its requirements, and does what is granted. -/
theorem accept_judged (s : HostState) (request : HostRequest Int32) :
    Judged s (s.requirements request) (HostAction.accept request) (Granted s request) := by
  show Judged s ([⟨s.exported = true, .noMemory⟩] ++ s.argumentRequirements request) _ _
  refine .bind (visibleMemory_judged s) fun memory hmemory => ?_
  subst hmemory
  cases request with
  | fetch snapshot length pointer => exact copy_judged s snapshot length pointer
  | diagnostic length pointer =>
    refine .bind_free (.lift (anyText_checked ..)) fun text htext => ?_
    subst htext
    exact record_judged s .diagnostic
  | error fl fp ml mp =>
    refine .bind (.lift (text_checked ..)) fun field hfield => ?_
    refine .bind_free (.lift (text_checked ..)) fun message hmessage => ?_
    exact record_judged s (.error hfield hmessage)
  | warn fl fp ml mp =>
    refine .bind (.lift (text_checked ..)) fun field hfield => ?_
    refine .bind_free (.lift (text_checked ..)) fun message hmessage => ?_
    exact record_judged s (.warn hfield hmessage)
  | setRequired length pointer value =>
    refine .bind_free (.lift (text_checked ..)) fun field hfield => ?_
    exact record_judged s (.setRequired hfield)
  | setDisplay length pointer value =>
    refine .bind_free (.lift (text_checked ..)) fun field hfield => ?_
    exact record_judged s (.setDisplay hfield)
  | set fl fp vl vp =>
    refine .bind (.lift (text_checked ..)) fun field hfield => ?_
    refine .bind (.lift (text_checked ..)) fun text htext => ?_
    exact set_judged s hfield htext

/-- A call that meets all its requirements is served. -/
theorem serve_granted {s : HostState} {request : HostRequest Int32} (h : AllMet (s.requirements request)) :
    ∃ answer t, s.serve request = (.ok answer, t) ∧ Granted s request answer t :=
  (accept_judged s request).succeeds h

/-- A call fails and changes nothing, or it is granted. -/
theorem HostState.serve_cases (s : HostState) (request : HostRequest Int32) :
    (∃ fault, s.serve request = (.error fault, s)) ∨
      ∃ answer t, s.serve request = (.ok answer, t) ∧ Granted s request answer t := by
  have hjudged := accept_judged s request
  unfold Judged at hjudged
  show (∃ fault, (HostAction.accept request).run.run s = (.error fault, s)) ∨
    ∃ answer t, (HostAction.accept request).run.run s = (.ok answer, t) ∧ Granted s request answer t
  rcases hrun : (HostAction.accept request).run.run s with ⟨fault | answer, t⟩
  · rw [hrun] at hjudged
    obtain ⟨-, rfl⟩ := hjudged
    exact .inl ⟨fault, rfl⟩
  · rw [hrun] at hjudged
    exact .inr ⟨answer, t, rfl, hjudged.2⟩

theorem HostState.granted_of_serve {s t : HostState} {request : HostRequest Int32} {answer : Option Int32}
    (h : s.serve request = (.ok answer, t)) : Granted s request answer t := by
  rcases s.serve_cases request with ⟨fault, hserve⟩ | ⟨answer', t', hserve, hgranted⟩
  · rw [hserve] at h
    cases h
  · rw [hserve] at h
    cases h
    exact hgranted

/-- The host functions are exact and atomic. A call succeeds exactly when all its requirements are met, and
    does what is granted. It fails exactly with the fault of the first requirement that is not met, and then
    the memory, the records and the calls are what they were. -/
theorem serve_exact (s : HostState) (request : HostRequest Int32) :
    ((∃ answer t, s.serve request = (.ok answer, t)) ↔ AllMet (s.requirements request)) ∧
    (∀ answer t, s.serve request = (.ok answer, t) ↔
      AllMet (s.requirements request) ∧ Granted s request answer t) ∧
    (∀ fault t, s.serve request = (.error fault, t) ↔
      FirstUnmet (s.requirements request) fault ∧ t = s) := by
  have hjudged := accept_judged s request
  refine ⟨⟨?_, ?_⟩, fun answer t => hjudged.ok_iff Granted.unique, fun fault t => hjudged.error_iff⟩
  · rintro ⟨answer, t, hserve⟩
    exact ((hjudged.ok_iff Granted.unique).mp hserve).1
  · intro hall
    obtain ⟨answer, t, hserve, -⟩ := hjudged.succeeds hall
    exact ⟨answer, t, hserve⟩

end RecordGate.Host
