import RecordGate.Host.Functions
import RecordGate.Proofs.Text.Encoding

/-! # Requirements of a call

What a host function asks of a call is a list of requirements, in the order in which they are checked, each
with the fault of a call that does not meet it. An action is `Judged` by such a list when it succeeds exactly
where all of them are met and otherwise ends with the fault of the first that is not, with nothing changed. -/

namespace RecordGate.Host

/-- A condition, and the fault of a call that does not meet it. -/
structure Requirement where
  met : Prop
  fault : HostFault

/-- Every requirement of a list is met. -/
def AllMet (requirements : List Requirement) : Prop :=
  ∀ requirement ∈ requirements, requirement.met

/-- The fault of the first requirement of a list that is not met. -/
inductive FirstUnmet : List Requirement → HostFault → Prop where
  | here {requirement : Requirement} {rest : List Requirement} :
      ¬requirement.met → FirstUnmet (requirement :: rest) requirement.fault
  | later {requirement : Requirement} {rest : List Requirement} {fault : HostFault} :
      requirement.met → FirstUnmet rest fault → FirstUnmet (requirement :: rest) fault

/-! ### Lists of requirements -/

theorem allMet_cons {r : Requirement} {rs : List Requirement} : AllMet (r :: rs) ↔ r.met ∧ AllMet rs :=
  List.forall_mem_cons

theorem allMet_append {rs ts : List Requirement} : AllMet (rs ++ ts) ↔ AllMet rs ∧ AllMet ts :=
  List.forall_mem_append

theorem FirstUnmet.append {rs ts : List Requirement} {fault : HostFault} (h : FirstUnmet rs fault) :
    FirstUnmet (rs ++ ts) fault := by
  induction h with
  | here hnot => exact .here hnot
  | later hmet _ ih => exact .later hmet ih

theorem FirstUnmet.append_of_allMet {rs ts : List Requirement} {fault : HostFault} (hrs : AllMet rs)
    (h : FirstUnmet ts fault) : FirstUnmet (rs ++ ts) fault := by
  induction rs with
  | nil => exact h
  | cons r rs ih =>
    obtain ⟨hr, hrs⟩ := allMet_cons.mp hrs
    exact .later hr (ih hrs)

theorem FirstUnmet.not_allMet {rs : List Requirement} {fault : HostFault} (h : FirstUnmet rs fault) :
    ¬AllMet rs := by
  induction h with
  | here hnot => exact fun hall => hnot (allMet_cons.mp hall).1
  | later _ _ ih => exact fun hall => ih (allMet_cons.mp hall).2

theorem FirstUnmet.unique {rs : List Requirement} {fault fault' : HostFault} (h : FirstUnmet rs fault)
    (h' : FirstUnmet rs fault') : fault = fault' := by
  induction h with
  | here hnot =>
    cases h' with
    | here => rfl
    | later hmet => exact absurd hmet hnot
  | later hmet _ ih =>
    cases h' with
    | here hnot => exact absurd hmet hnot
    | later _ hrest => exact ih hrest

theorem exists_firstUnmet {rs : List Requirement} (h : ¬AllMet rs) : ∃ fault, FirstUnmet rs fault := by
  induction rs with
  | nil => exact absurd (List.forall_mem_nil _) h
  | cons r rs ih =>
    by_cases hr : r.met
    · obtain ⟨fault, hrest⟩ := ih fun hrs => h (allMet_cons.mpr ⟨hr, hrs⟩)
      exact ⟨fault, .later hr hrest⟩
    · exact ⟨_, .here hr⟩

/-! ### Checks and actions -/

/-- A check succeeds where all requirements are met, with what was to be found, and otherwise ends with the
    fault of the first that is not. -/
def Checked {α : Type} (requirements : List Requirement) (result : Except HostFault α)
    (found : α → Prop) : Prop :=
  match result with
  | .ok a => AllMet requirements ∧ found a
  | .error fault => FirstUnmet requirements fault

/-- In a state the action succeeds where all requirements are met, with a good result, and otherwise ends
    with the fault of the first that is not and leaves the state as it was. -/
def Judged {α : Type} (s : HostState) (requirements : List Requirement) (action : HostAction α)
    (good : α → HostState → Prop) : Prop :=
  match action.run.run s with
  | (.ok a, t) => AllMet requirements ∧ good a t
  | (.error fault, t) => FirstUnmet requirements fault ∧ t = s

theorem Checked.ok_iff {α : Type} {requirements : List Requirement} {result : Except HostFault α} {found : α → Prop}
    (h : Checked requirements result found) (hunique : ∀ {a b}, found a → found b → a = b) {a : α} :
    result = .ok a ↔ AllMet requirements ∧ found a := by
  constructor
  · rintro rfl
    exact h
  · rintro ⟨hall, ha⟩
    cases result with
    | ok b => rw [hunique ha h.2]
    | error fault => exact absurd hall (FirstUnmet.not_allMet h)

theorem Checked.error_iff {α : Type} {requirements : List Requirement} {result : Except HostFault α}
    {found : α → Prop} (h : Checked requirements result found) {fault : HostFault} :
    result = .error fault ↔ FirstUnmet requirements fault := by
  constructor
  · rintro rfl
    exact h
  · intro hunmet
    cases result with
    | ok a => exact absurd h.1 hunmet.not_allMet
    | error other => rw [hunmet.unique h]

theorem run_bind {α β : Type} (action : HostAction α) (next : α → HostAction β) (s : HostState) :
    (action >>= next).run.run s = match action.run.run s with
      | (.ok a, t) => (next a).run.run t
      | (.error fault, t) => (.error fault, t) := by
  show (ExceptT.bindCont next (action.run.run s).1).run (action.run.run s).2 = _
  rcases action.run.run s with ⟨a | fault, t⟩ <;> rfl

theorem run_get_bind {β : Type} (next : HostState → HostAction β) (s : HostState) :
    (get >>= next).run.run s = (next s).run.run s := rfl

namespace Judged
variable {α β : Type} {s : HostState} {rs ts : List Requirement}

theorem lift {result : Except HostFault α} {found : α → Prop} (h : Checked rs result found) :
    Judged s rs (liftM result) fun a t => t = s ∧ found a := by
  cases result with
  | ok a => exact ⟨h.1, rfl, h.2⟩
  | error fault => exact ⟨h, rfl⟩

/-- A check before an action: its requirements come first, and it changes nothing. -/
theorem bind {action : HostAction α} {next : α → HostAction β} {found : α → Prop}
    {good : β → HostState → Prop} (hfirst : Judged s rs action fun a t => t = s ∧ found a)
    (hnext : ∀ a, found a → Judged s ts (next a) good) : Judged s (rs ++ ts) (action >>= next) good := by
  unfold Judged at hfirst ⊢
  rw [run_bind]
  rcases hrun : action.run.run s with ⟨fault | a, t⟩
  · rw [hrun] at hfirst
    exact ⟨hfirst.1.append, hfirst.2⟩
  · rw [hrun] at hfirst
    obtain ⟨hrs, rfl, ha⟩ := hfirst
    have hnext := hnext a ha
    unfold Judged at hnext
    show match (next a).run.run t with
      | (.ok b, u) => AllMet (rs ++ ts) ∧ good b u
      | (.error fault, u) => FirstUnmet (rs ++ ts) fault ∧ u = t
    rcases hrest : (next a).run.run t with ⟨fault | b, u⟩
    · rw [hrest] at hnext
      exact ⟨.append_of_allMet hrs hnext.1, hnext.2⟩
    · rw [hrest] at hnext
      exact ⟨allMet_append.mpr ⟨hrs, hnext.1⟩, hnext.2⟩

theorem bind_free {action : HostAction α} {next : α → HostAction β} {found : α → Prop}
    {good : β → HostState → Prop} (hfirst : Judged s rs action fun a t => t = s ∧ found a)
    (hnext : ∀ a, found a → Judged s [] (next a) good) : Judged s rs (action >>= next) good := by
  have h := hfirst.bind hnext
  rwa [List.append_nil] at h

/-- A single requirement: the action succeeds where it is met and ends with its fault where it is not. -/
theorem single {r : Requirement} {action : HostAction α} {good : α → HostState → Prop}
    (hok : r.met → ∃ a t, action.run.run s = (.ok a, t) ∧ good a t)
    (herror : ¬r.met → action.run.run s = (.error r.fault, s)) : Judged s [r] action good := by
  unfold Judged
  by_cases hr : r.met
  · obtain ⟨a, t, hrun, hgood⟩ := hok hr
    rw [hrun]
    exact ⟨List.forall_mem_singleton.mpr hr, hgood⟩
  · rw [herror hr]
    exact ⟨.here hr, rfl⟩

variable {action : HostAction α} {good : α → HostState → Prop}

theorem succeeds (h : Judged s rs action good) (hall : AllMet rs) :
    ∃ a t, action.run.run s = (.ok a, t) ∧ good a t := by
  unfold Judged at h
  rcases hrun : action.run.run s with ⟨fault | a, t⟩
  · rw [hrun] at h
    exact absurd hall h.1.not_allMet
  · rw [hrun] at h
    exact ⟨a, t, rfl, h.2⟩

theorem ok_iff (h : Judged s rs action good) (hunique : ∀ {a b t u}, good a t → good b u → a = b ∧ t = u)
    {a : α} {t : HostState} : action.run.run s = (.ok a, t) ↔ AllMet rs ∧ good a t := by
  constructor
  · intro hrun
    unfold Judged at h
    rw [hrun] at h
    exact h
  · rintro ⟨hall, hgood⟩
    obtain ⟨b, u, hrun, hgood'⟩ := h.succeeds hall
    obtain ⟨rfl, rfl⟩ := hunique hgood hgood'
    exact hrun

theorem error_iff (h : Judged s rs action good) {fault : HostFault} {t : HostState} :
    action.run.run s = (.error fault, t) ↔ FirstUnmet rs fault ∧ t = s := by
  unfold Judged at h
  rcases hrun : action.run.run s with ⟨fault' | a, u⟩
  · rw [hrun] at h
    obtain ⟨hunmet, rfl⟩ := h
    constructor
    · intro heq
      cases heq
      exact ⟨hunmet, rfl⟩
    · rintro ⟨hunmet', rfl⟩
      rw [hunmet.unique hunmet']
  · rw [hrun] at h
    constructor
    · intro heq
      cases heq
    · rintro ⟨hunmet, -⟩
      exact absurd h.1 hunmet.not_allMet

end Judged
end RecordGate.Host
