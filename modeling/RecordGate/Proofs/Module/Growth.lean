import RecordGate.Module.Reader
import RecordGate.Proofs.Module.Validation

/-! # How the memory of a module grows

The memory of a module starts within the limits of a run, and no step takes it out of them or takes a page away
(`Advances.pages`). A growth that the limits forbid ends the run instead of being answered, so that a module sees
only those that were granted (`Grown`). The main statement, `memory_capped`, says this of every point that the
run of a module can come to (`Visits`). -/

namespace RecordGate.Module
open Host

/-- The functions of a module that are run, in their order. -/
inductive Phase where
  | start
  | entry

/-- The run of a module comes to a point of its start function or of its entry. -/
inductive Visits (engine : Engine) (module : Module) (limits : Limits) (records : RecordPair) :
    Phase → Config → Prop where
  | start {prepared : Store} {taken : List Taken} {c : Config} : module.prepare limits records = .ok prepared →
      Advances engine (module.memoryLimit limits) ⟨⟨prepared, fun _ => 0⟩, module.startSteps⟩ taken c →
      Visits engine module limits records .start c
  | entry {started : Store} {steps : List Step} {taken : List Taken} {c : Config} :
      module.instantiate engine limits records = .ok started → module.entrySteps = .ok steps →
      Advances engine (module.memoryLimit limits) ⟨⟨started, fun _ => 0⟩, .enter :: steps⟩ taken c →
      Visits engine module limits records .entry c

/-- The memory has grown by zeros behind what it held, the answer is the number of pages that it had, and
    nothing else has changed. -/
structure Grown (machine : Machine) (delta : Nat) (into : Option Nat) (next : Machine) : Prop where
  pages : next.host.memory.pages = machine.host.memory.pages + delta
  kept : ∀ a < machine.host.memory.size, next.host.memory.byte a = machine.host.memory.byte a
  zeros : ∀ a, machine.host.memory.size ≤ a → next.host.memory.byte a = 0
  answer : ∀ index, into = some index → (next.slots index).toInt = machine.host.memory.pages
  slots : ∀ index, into ≠ some index → next.slots index = machine.slots index
  fuel : next.fuel = machine.fuel
  host : ∃ memory, next.host = { machine.host with memory := memory }

variable {engine : Engine} {limit : MemoryLimit} {module : Module} {limits : Limits} {records : RecordPair}

/-! ### Steps -/

theorem serve_pages {s t : HostState} {request : HostRequest Int32} {answer : Option Int32}
    (h : s.serve request = (.ok answer, t)) : t.memory.pages = s.memory.pages := by
  have hgranted := HostState.granted_of_serve h
  cases hgranted <;> rfl

/-- A step takes no page away, and adds pages only within the limit. -/
theorem Effect.pages {machine next : Machine} {step : Step} (h : Effect limit machine step next) :
    machine.host.memory.pages ≤ next.host.memory.pages ∧
      (limit.Allows machine.host.memory.pages → limit.Allows next.host.memory.pages) := by
  cases h with
  | asked hrequest hserve hfuel => simp [serve_pages hserve]
  | @grown pages into hallowed =>
    rw [Machine.put_host]
    refine ⟨Nat.le_add_right _ _, fun hbefore => ?_⟩
    rcases hallowed with hnone | hallowed
    · simpa [Machine.withMemory, Memory.grow, hnone] using hbefore
    · exact hallowed
  | inside hrequest hgrow hpages hhost hfuel => simp [hhost, hpages]

theorem Advances.pages {c c' : Config} {taken : List Taken} (h : Advances engine limit c taken c') :
    c.machine.host.memory.pages ≤ c'.machine.host.memory.pages ∧
      (limit.Allows c.machine.host.memory.pages → limit.Allows c'.machine.host.memory.pages) := by
  induction h with
  | refl c => exact ⟨Nat.le_refl _, id⟩
  | took _ htake _ ih | chose htake _ ih | finished htake _ ih =>
    have hstep := (take_effect htake).pages
    exact ⟨Nat.le_trans hstep.1 ih.1, fun hbefore => ih.2 (hstep.2 hbefore)⟩

theorem grown_grow (machine : Machine) (delta : Nat) (into : Option Nat)
    (hpages : machine.host.memory.pages ≤ mostPages) :
    Grown machine delta into ((machine.withMemory (machine.host.memory.grow delta)).put into
      (Int32.ofNat machine.host.memory.pages)) where
  pages := by rw [Machine.put_host]; rfl
  kept a ha := by
    rw [Machine.put_host]
    exact if_pos ha
  zeros a ha := by
    rw [Machine.put_host]
    exact if_neg (Nat.not_lt.mpr ha)
  answer index hindex := by
    have hanswer : (Int32.ofNat machine.host.memory.pages).toInt = machine.host.memory.pages :=
      Int32.toInt_ofNat_of_lt (Nat.lt_of_le_of_lt hpages (by decide))
    simpa [hindex, Machine.put] using hanswer
  slots index hindex := by
    cases into with
    | none => rfl
    | some i =>
      have hother : index ≠ i := fun h => hindex (by rw [h])
      simp [Machine.put, Machine.withMemory, hother]
  fuel := by cases into <;> rfl
  host := ⟨_, Machine.put_host ..⟩

/-- A growth that the limit allows is granted. -/
theorem take_grow_allowed {machine : Machine} {pages : Operand} {into : Option Nat}
    (hmost : limit.pages ≤ mostPages) (hpaid : ¬machine.Exhausted engine (.grow pages into))
    (h : limit.Allows (machine.host.memory.pages + machine.unsigned pages)) :
    ∃ next, machine.take engine limit (.grow pages into) = (.ok (), next) ∧
      Grown (machine.paid engine (.grow pages into)) (machine.unsigned pages) into next := by
  have hpages : machine.host.memory.pages ≤ mostPages :=
    Nat.le_trans (Nat.le_add_right _ _) (Nat.le_trans h.2 hmost)
  refine ⟨_, take_eq_ok_iff.mpr ⟨hpaid, ?_⟩, grown_grow _ (machine.unsigned pages) into hpages⟩
  exact if_pos (.inr h)

/-- A growth that the limit forbids is a trap, with the size that was asked for. -/
theorem take_grow_forbidden {machine : Machine} {pages : Operand} {into : Option Nat}
    (hbefore : limit.Allows machine.host.memory.pages) (hpaid : ¬machine.Exhausted engine (.grow pages into))
    (h : ¬limit.Allows (machine.host.memory.pages + machine.unsigned pages)) :
    machine.take engine limit (.grow pages into) =
      (.error ⟨engine.place machine (.grow pages into),
        .growth ((machine.host.memory.pages + machine.unsigned pages) * pageSize)⟩,
        machine.paid engine (.grow pages into)) := by
  have hsome : machine.unsigned pages ≠ 0 := fun hnone => h (by simpa [hnone] using hbefore)
  refine take_eq_error_iff.mpr (.inr ⟨hpaid, _, rfl, ?_⟩)
  exact if_neg fun hgranted => hgranted.elim hsome h

/-! ### The memory at the start -/

theorem emptyMemory_pages {memory : Memory} (h : module.emptyMemory limits = .ok memory) :
    (module.memoryLimit limits).Allows memory.pages ∧
      ∀ declaration ∈ module.memory, memory.pages = declaration.pages := by
  unfold emptyMemory at h
  split at h
  · next hnone =>
    obtain rfl := Except.ok.inj h
    exact ⟨⟨le_of_eq_of_le (Nat.zero_mul _) (Nat.zero_le _), Nat.zero_le _⟩, by simp [hnone]⟩
  · next declaration hsome =>
    split at h
    · next hallowed =>
      cases h
      refine ⟨hallowed, fun declared hdeclared => ?_⟩
      obtain rfl := Option.some.inj (hsome.symm.trans hdeclared)
      rfl
    · cases h

theorem fillMemory_pages {data : List (UInt32 × List UInt8)} {empty memory : Memory}
    (h : fillMemory empty data = .ok memory) : memory.pages = empty.pages := by
  induction data generalizing empty with
  | nil =>
    cases h
    rfl
  | cons entry rest ih =>
    rw [fillMemory] at h
    split at h
    · cases h
    · exact (ih h).trans rfl

theorem prepare_pages {prepared : Store} (h : module.prepare limits records = .ok prepared) :
    (module.memoryLimit limits).Allows prepared.host.memory.pages ∧
      ∀ declaration ∈ module.memory, prepared.host.memory.pages = declaration.pages := by
  obtain ⟨-, empty, memory, hempty, hmemory, rfl⟩ := prepare_eq_ok_iff.mp h
  rw [fillMemory_pages hmemory]
  exact emptyMemory_pages hempty

/-! ### Points of a run -/

theorem memoryLimit_pages_le (module : Module) (limits : Limits) : (module.memoryLimit limits).pages ≤ mostPages :=
  Nat.min_le_right _ _

/-- A memory is within the limits of a run and what its module has declared. -/
structure Capped (module : Module) (limits : Limits) (memory : Memory) : Prop where
  bytes : memory.size ≤ limits.memoryBytes
  whole : ∃ pages ≤ mostPages, memory.size = pages * pageSize
  declared : ∀ declaration ∈ module.memory, declaration.pages * pageSize ≤ memory.size ∧
    ∀ most, declaration.maximum = some most → memory.size ≤ most * pageSize

theorem capped_of_allows {memory : Memory} (h : (module.memoryLimit limits).Allows memory.pages)
    (hleast : ∀ declaration ∈ module.memory, declaration.pages ≤ memory.pages) :
    Capped module limits memory where
  bytes := memory.size_eq ▸ h.1
  whole := ⟨memory.pages, Nat.le_trans h.2 (memoryLimit_pages_le ..), memory.size_eq⟩
  declared declaration hdeclaration := by
    rw [memory.size_eq]
    refine ⟨Nat.mul_le_mul_right _ (hleast declaration hdeclaration), fun most hmost => Nat.mul_le_mul_right _ ?_⟩
    have hpages : (module.memoryLimit limits).pages = most.min mostPages := by
      simp [memoryLimit, Option.mem_def.mp hdeclaration, hmost]
    exact Nat.le_trans h.2 (hpages ▸ Nat.min_le_left _ _)

theorem Visits.trans {phase : Phase} {c c' : Config} {taken : List Taken}
    (h : Visits engine module limits records phase c)
    (h' : Advances engine (module.memoryLimit limits) c taken c') : Visits engine module limits records phase c' := by
  cases h with
  | start hprepare hadvances => exact .start hprepare (hadvances.trans h')
  | entry hstarted hsteps hadvances => exact .entry hstarted hsteps (hadvances.trans h')

/-- Every point of a run comes after the preparation of the module. -/
theorem Visits.exists_prepare {phase : Phase} {c : Config} (h : Visits engine module limits records phase c) :
    ∃ prepared, module.prepare limits records = .ok prepared ∧
      prepared.host.memory.pages ≤ c.machine.host.memory.pages ∧
      ((module.memoryLimit limits).Allows prepared.host.memory.pages →
        (module.memoryLimit limits).Allows c.machine.host.memory.pages) := by
  cases h with
  | start hprepare hadvances => exact ⟨_, hprepare, hadvances.pages⟩
  | entry hstarted hsteps hadvances =>
    obtain ⟨prepared, first, hprepare, c', last, hfirst, hhalts, rfl⟩ := instantiate_eq_ok_iff.mp hstarted
    have hstart := hfirst.pages
    rw [← hhalts.host_eq] at hstart
    exact ⟨prepared, hprepare, Nat.le_trans hstart.1 hadvances.pages.1, fun h => hadvances.pages.2 (hstart.2 h)⟩

theorem Visits.allows {phase : Phase} {c : Config} (h : Visits engine module limits records phase c) :
    (module.memoryLimit limits).Allows c.machine.host.memory.pages := by
  obtain ⟨prepared, hprepare, -, hkept⟩ := h.exists_prepare
  exact hkept (prepare_pages hprepare).1

theorem Visits.capped {phase : Phase} {c : Config} (h : Visits engine module limits records phase c) :
    Capped module limits c.machine.host.memory := by
  obtain ⟨prepared, hprepare, hpages, -⟩ := h.exists_prepare
  refine capped_of_allows h.allows fun declaration hdeclaration => ?_
  rw [← (prepare_pages hprepare).2 declaration hdeclaration]
  exact hpages

/-- The entry has at least the memory that the start function has had at any of its points. -/
theorem Visits.pages_le {c c' : Config} (h : Visits engine module limits records .start c)
    (h' : Visits engine module limits records .entry c') :
    c.machine.host.memory.pages ≤ c'.machine.host.memory.pages := by
  rcases h with ⟨hprepare, hadvances⟩ | _
  rcases h' with _ | ⟨hstarted, hsteps, hentry⟩
  obtain ⟨prepared, first, hprepare', final, last, hfirst, hhalts, rfl⟩ := instantiate_eq_ok_iff.mp hstarted
  obtain rfl := Except.ok.inj (hprepare.symm.trans hprepare')
  obtain ⟨more, final', hfinal, hhalts'⟩ := hadvances.exists_end hfirst hhalts
  have hstart := hfinal.pages.1
  rw [← hhalts'.host_eq] at hstart
  exact Nat.le_trans hstart hentry.pages.1

theorem size_le_size {memory other : Memory} (h : memory.pages ≤ other.pages) : memory.size ≤ other.size := by
  rw [memory.size_eq, other.size_eq]
  exact Nat.mul_le_mul_right _ h

/-! ### Refusals -/

/-- What a validation gives if one of the functions of its module crashes. -/
def Stopped (engine : Engine) (module : Module) (limits : Limits) (records : RecordPair) (crash : Crash)
    (calls : List HostCall) : Phase → Prop
  | .start => ∀ name, Validator.validate ⟨name, module⟩ engine limits records = .error (.instantiate crash.message)
  | .entry => ∀ name, ∃ execution, Validator.validate ⟨name, module⟩ engine limits records = .ok execution ∧
      execution.status = .aborted crash.reason ∧ execution.report.calls = calls

theorem Visits.stopped {phase : Phase} {c : Config} {crash : Crash} {last : Machine}
    (h : Visits engine module limits records phase c)
    (hhalts : Halts engine (module.memoryLimit limits) c (some crash) last) :
    Stopped engine module limits records crash c.machine.host.calls phase := by
  cases h with
  | start hprepare hadvances =>
    exact fun name => (validate_eq_error_iff name).mpr (.inl (instantiate_eq_error_iff.mpr
      (.inr ⟨_, _, crash, _, hprepare, ⟨c, last, hadvances, hhalts, rfl⟩, rfl⟩)))
  | entry hstarted hsteps hadvances =>
    obtain ⟨prepared, first, hprepare, hfirst⟩ := instantiate_eq_ok_iff.mp hstarted
    have hexecuted := Executed.intro hprepare hfirst hsteps ⟨c, last, hadvances, hhalts, rfl⟩
    exact fun name => ⟨_, hexecuted.validate_eq name, rfl, congrArg HostState.calls hhalts.host_eq⟩

/-! ### The whole run -/

/-- A module that declares too much memory is not run at all. At every point of the run of another one its memory
    is within all limits and no smaller than before, and a growth ahead is granted as a whole or stops the function
    with the calls that were made, however great it is; it also stops there if the fuel runs out before the growth. -/
theorem memory_capped (engine : Engine) (module : Module) (limits : Limits) (records : RecordPair) :
    (∀ declaration ∈ module.memory, limits.memoryBytes < declaration.pages * pageSize →
      (∀ phase c, ¬Visits engine module limits records phase c) ∧
      ∀ name, ∃ message, Validator.validate ⟨name, module⟩ engine limits records = .error (.instantiate message)) ∧
    (∀ phase c, Visits engine module limits records phase c → Capped module limits c.machine.host.memory ∧
      (∀ taken c', Advances engine (module.memoryLimit limits) c taken c' →
        Visits engine module limits records phase c' ∧
          c.machine.host.memory.size ≤ c'.machine.host.memory.size) ∧
      ∀ pages into rest, c.ahead = .grow pages into :: rest →
        if c.machine.Exhausted engine (.grow pages into) then
          Stopped engine module limits records ⟨engine.place c.machine (.grow pages into), .outOfFuel⟩
            c.machine.host.calls phase
        else if (module.memoryLimit limits).Allows (c.machine.host.memory.pages + c.machine.unsigned pages) then
          ∃ next, c.machine.take engine (module.memoryLimit limits) (.grow pages into) = (.ok (), next) ∧
            Grown (c.machine.paid engine (.grow pages into)) (c.machine.unsigned pages) into next ∧
            Visits engine module limits records phase ⟨next, rest⟩
        else Stopped engine module limits records ⟨engine.place c.machine (.grow pages into),
          .growth ((c.machine.host.memory.pages + c.machine.unsigned pages) * pageSize)⟩
          c.machine.host.calls phase) ∧
    ∀ c c', Visits engine module limits records .start c → Visits engine module limits records .entry c' →
      c.machine.host.memory.size ≤ c'.machine.host.memory.size := by
  refine ⟨fun declaration hdeclaration hlarge => ?large, fun phase c h => ⟨h.capped, fun taken c' hadvances =>
    ⟨h.trans hadvances, size_le_size hadvances.pages.1⟩, ?growth⟩,
    fun c c' h h' => size_le_size (h.pages_le h')⟩
  case large =>
    have hforbidden : ∀ prepared, module.prepare limits records ≠ .ok prepared := fun prepared hprepare => by
      obtain ⟨hallowed, hpages⟩ := prepare_pages hprepare
      rw [hpages declaration hdeclaration] at hallowed
      exact absurd hallowed.1 (Nat.not_le.mpr hlarge)
    refine ⟨fun phase c h => ?_, fun name => ?_⟩
    · obtain ⟨prepared, hprepare, -⟩ := h.exists_prepare
      exact hforbidden prepared hprepare
    · rcases hprepare : module.prepare limits records with error | prepared
      · obtain ⟨message, rfl⟩ := prepare_error_kind hprepare
        exact ⟨message, (validate_eq_error_iff name).mpr (.inl (instantiate_eq_error_iff.mpr (.inl hprepare)))⟩
      · exact absurd hprepare (hforbidden prepared)
  case growth =>
    intro pages into rest hahead
    obtain ⟨machine, ahead⟩ := c
    subst hahead
    split
    · next hexhausted => exact h.stopped (.crashed (take_eq_error_iff.mpr (.inl ⟨hexhausted, rfl, rfl⟩)))
    · next hpaid =>
      split
      · next hallowed =>
        obtain ⟨next, htake, hgrown⟩ := take_grow_allowed (memoryLimit_pages_le module limits) hpaid hallowed
        exact ⟨next, htake, hgrown, h.trans (.took rfl htake (.refl _))⟩
      · next hforbidden => exact h.stopped (.crashed (take_grow_forbidden h.allows hpaid hforbidden))

/-- A module of one page that asks for another one. -/
def growing : Module :=
  ⟨[], some ⟨1, none, some memoryName⟩, [], [], none, requiredEntry, .function [.grow (.const 1) none]⟩

/-- A run of `growing` whose entry has been entered. -/
def growingEntered : Machine :=
  ⟨⟨⟨.zeros 1, true, ⟨"5", ""⟩, []⟩, 4⟩, fun _ => 0⟩

theorem visits_growing (bytes : Nat) (h : 65536 ≤ bytes) :
    Visits scriptEngine growing ⟨5, bytes⟩ ⟨"5", ""⟩ .entry ⟨growingEntered, [.grow (.const 1) none]⟩ := by
  have hallowed : (growing.memoryLimit ⟨5, bytes⟩).Allows 1 := ⟨h, (by decide : 1 ≤ mostPages)⟩
  have hempty : growing.emptyMemory ⟨5, bytes⟩ = .ok (.zeros 1) := if_pos hallowed
  have hstarted : growing.instantiate scriptEngine ⟨5, bytes⟩ ⟨"5", ""⟩ =
      .ok ⟨⟨.zeros 1, true, ⟨"5", ""⟩, []⟩, 5⟩ := by
    unfold instantiate
    rw [hempty]
    rfl
  exact .entry hstarted rfl (.took rfl (take_eq_ok_iff.mpr ⟨by decide, rfl⟩) (.refl _))

/-- The other page is granted by a host that allows two, refused a byte below that, and a byte below one page
    the module is not run at all. -/
theorem memory_capped_growing :
    (∃ next, Visits scriptEngine growing ⟨5, 131072⟩ ⟨"5", ""⟩ .entry
        ⟨growingEntered, [.grow (.const 1) none]⟩ ∧
      Grown (growingEntered.paid scriptEngine (.grow (.const 1) none)) 1 none next ∧
      Visits scriptEngine growing ⟨5, 131072⟩ ⟨"5", ""⟩ .entry ⟨next, []⟩) ∧
    (∃ execution, Validator.validate ⟨"growing", growing⟩ scriptEngine ⟨5, 131071⟩ ⟨"5", ""⟩ = .ok execution ∧
      execution.status = .aborted "forcing trap when growing memory to 131072 bytes") ∧
    ∃ message, Validator.validate ⟨"growing", growing⟩ scriptEngine ⟨5, 65535⟩ ⟨"5", ""⟩ =
      .error (.instantiate message) := by
  have hpaid : ¬growingEntered.Exhausted scriptEngine (.grow (.const 1) none) := by decide
  refine ⟨?granted, ?refused, ?unstarted⟩
  case granted =>
    have h := visits_growing 131072 (by decide)
    obtain ⟨-, -, hgrowth⟩ := (memory_capped scriptEngine growing ⟨5, 131072⟩ ⟨"5", ""⟩).2.1 .entry _ h
    have hgranted := hgrowth _ _ _ rfl
    rw [if_neg hpaid, if_pos (by decide)] at hgranted
    obtain ⟨next, -, hgrown, hnext⟩ := hgranted
    exact ⟨next, h, hgrown, hnext⟩
  case refused =>
    have h := visits_growing 131071 (by decide)
    obtain ⟨-, -, hgrowth⟩ := (memory_capped scriptEngine growing ⟨5, 131071⟩ ⟨"5", ""⟩).2.1 .entry _ h
    have hrefused := hgrowth _ _ _ rfl
    rw [if_neg hpaid, if_neg (by decide)] at hrefused
    obtain ⟨execution, hvalidate, hstatus, -⟩ := hrefused "growing"
    exact ⟨execution, hvalidate, hstatus⟩
  case unstarted =>
    exact ((memory_capped scriptEngine growing ⟨5, 65535⟩ ⟨"5", ""⟩).1 _ rfl (by decide)).2 "growing"

end RecordGate.Module
