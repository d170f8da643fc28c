import RecordGate.Proofs.Invocation.Fetching
import RecordGate.Proofs.Invocation.Replaying

/-! # The invocation protocol

The calls of an invocation over an arbitrary host: the fetch of the current snapshot, the fetch of the
previous one, the messages of the rules, and a diagnostic if the invocation was aborted. `Course` gives the
calls and the outcome of each way it can go, and the main statement, `invoke_course_iff`, says that an
invocation takes exactly that course, whatever the host answers, and that the rules matter only through what
they make of the decoded records. -/

namespace RecordGate
open Record

variable {σ ρ : Type}

/-- What an invocation has still to say when it has ended: the reason of an abort. -/
def Outcome.closing : Outcome → List Message
  | .completed _ => []
  | .aborted reason => [.diagnostic reason.message]

/-- What follows the fetch of both snapshots: the messages of the rules, and how the invocation ends. -/
inductive Concluded (schema : Schema ρ) (rules : ρ → ρ → Intents) (current previous : List UInt8) :
    List Message → Outcome → Prop where
  /-- A snapshot is no record, and nothing is said about any field. -/
  | undecoded {error : DecodeError} : decodePair schema current previous = .error error →
      Concluded schema rules current previous [] (.aborted (.decode error))
  /-- Every intent of the rules is replayed. -/
  | completed {records : Pair ρ} {messages : List Message} {errors : Nat} :
      decodePair schema current previous = .ok records →
      Replayed (rules records.current records.previous).entries messages (.ok errors) →
      Concluded schema rules current previous messages (.completed errors)
  /-- The intents of the rules are replayed up to one that cannot be sent. -/
  | unsendable {records : Pair ρ} {messages : List Message} {error : TransferError} :
      decodePair schema current previous = .ok records →
      Replayed (rules records.current records.previous).entries messages (.error error) →
      Concluded schema rules current previous messages (.aborted (.transfer error))

/-- The calls of an invocation before it closes, and its outcome. -/
inductive Course (boundary : Boundary σ) (schema : Schema ρ) (rules : ρ → ρ → Intents) (s : σ) :
    List Exchange → Outcome → Prop where
  /-- The current snapshot cannot be fetched. -/
  | currentUnfetched {calls : List Exchange} {error : TransferError} {t : σ} :
      Fetched boundary .current s calls (.error error) t →
      Course boundary schema rules s calls (.aborted (.transfer error))
  /-- The previous snapshot cannot be fetched. -/
  | previousUnfetched {first second : List Exchange} {current : List UInt8} {error : TransferError} {t u : σ} :
      Fetched boundary .current s first (.ok current) t → Fetched boundary .previous t second (.error error) u →
      Course boundary schema rules s (first ++ second) (.aborted (.transfer error))
  /-- Both snapshots are fetched. -/
  | fetched {first second : List Exchange} {current previous : List UInt8} {messages : List Message}
      {outcome : Outcome} {t u : σ} :
      Fetched boundary .current s first (.ok current) t → Fetched boundary .previous t second (.ok previous) u →
      Concluded schema rules current previous messages outcome →
      Course boundary schema rules s (first ++ second ++ messages.map .sent) outcome

/-- The records that an invocation applies its rules to: both snapshots are fetched and both decode. -/
def Applied (boundary : Boundary σ) (schema : Schema ρ) (s : σ) (records : Pair ρ) : Prop :=
  ∃ first second current previous t u, Fetched boundary .current s first (.ok current) t ∧
    Fetched boundary .previous t second (.ok previous) u ∧ decodePair schema current previous = .ok records

/-- What the rules are applied to is read off both fetches. -/
theorem applied_iff {boundary : Boundary σ} {schema : Schema ρ} {s : σ} {records : Pair ρ} :
    Applied boundary schema s records ↔ ∃ current previous, (fetch boundary .current s).1 = .ok current ∧
      (fetch boundary .previous (fetch boundary .current s).2).1 = .ok previous ∧
      decodePair schema current previous = .ok records := by
  constructor
  · rintro ⟨first, second, current, previous, t, u, hcurrent, hprevious, hdecode⟩
    rw [hcurrent.fetch_eq, hprevious.fetch_eq]
    exact ⟨current, previous, rfl, rfl, hdecode⟩
  · rintro ⟨current, previous, hcurrent, hprevious, hdecode⟩
    obtain ⟨first, result, t, hfirst⟩ := exists_fetched boundary .current s
    obtain ⟨second, result', u, hsecond⟩ := exists_fetched boundary .previous t
    rw [hfirst.fetch_eq] at hcurrent hprevious
    rw [hsecond.fetch_eq] at hprevious
    dsimp only at hcurrent hprevious
    subst hcurrent hprevious
    exact ⟨first, second, current, previous, t, u, hfirst, hsecond, hdecode⟩

/-! ### After the fetches -/

theorem exists_concluded (schema : Schema ρ) (rules : ρ → ρ → Intents) (current previous : List UInt8) :
    ∃ messages outcome, Concluded schema rules current previous messages outcome := by
  cases hdecode : decodePair schema current previous with
  | error error => exact ⟨[], _, .undecoded hdecode⟩
  | ok records =>
    obtain ⟨messages, result, h⟩ := exists_replayed (rules records.current records.previous).entries
    cases result with
    | ok errors => exact ⟨messages, _, .completed hdecode h⟩
    | error error => exact ⟨messages, _, .unsendable hdecode h⟩

theorem Concluded.invoke_eq {schema : Schema ρ} {rules : ρ → ρ → Intents} {current previous : List UInt8}
    {messages : List Message} {outcome : Outcome} (h : Concluded schema rules current previous messages outcome)
    {boundary : Boundary σ} {s t u : σ} (hcurrent : fetch boundary .current s = (.ok current, t))
    (hprevious : fetch boundary .previous t = (.ok previous, u)) :
    invoke boundary schema rules s = (outcome, sendAll boundary (messages ++ outcome.closing) u) := by
  unfold invoke attempt
  rw [sendAll_append]
  cases h with
  | undecoded hdecode => simp only [hcurrent, hprevious, hdecode]; rfl
  | completed hdecode hreplayed =>
    simp only [hcurrent, hprevious, hdecode, hreplayed.report_eq]
    rfl
  | unsendable hdecode hreplayed =>
    simp only [hcurrent, hprevious, hdecode, hreplayed.report_eq]
    rfl

/-! ### The whole invocation -/

theorem exists_course (boundary : Boundary σ) (schema : Schema ρ) (rules : ρ → ρ → Intents) (s : σ) :
    ∃ calls outcome, Course boundary schema rules s calls outcome := by
  obtain ⟨first, result, t, hcurrent⟩ := exists_fetched boundary .current s
  cases result with
  | error error => exact ⟨_, _, .currentUnfetched hcurrent⟩
  | ok current =>
    obtain ⟨second, result, u, hprevious⟩ := exists_fetched boundary .previous t
    cases result with
    | error error => exact ⟨_, _, .previousUnfetched hcurrent hprevious⟩
    | ok previous =>
      obtain ⟨messages, outcome, h⟩ := exists_concluded schema rules current previous
      exact ⟨_, _, .fetched hcurrent hprevious h⟩

theorem Course.invoke_eq {boundary : Boundary σ} {schema : Schema ρ} {rules : ρ → ρ → Intents} {s : σ}
    {calls : List Exchange} {outcome : Outcome} (h : Course boundary schema rules s calls outcome) :
    ∃ t, invoke boundary.logged schema rules ⟨[], s⟩ =
      (outcome, ⟨calls ++ outcome.closing.map .sent, t⟩) := by
  cases h with
  | currentUnfetched hcurrent =>
    apply Exists.intro
    simp only [invoke, attempt, hcurrent.fetch_logged_eq]
    rfl
  | previousUnfetched hcurrent hprevious =>
    apply Exists.intro
    simp only [invoke, attempt, hcurrent.fetch_logged_eq, hprevious.fetch_logged_eq]
    rfl
  | fetched hcurrent hprevious hconcluded =>
    apply Exists.intro
    rw [hconcluded.invoke_eq (hcurrent.fetch_logged_eq []) (hprevious.fetch_logged_eq _), sendAll_logged]
    simp only [List.nil_append, List.map_append, List.append_assoc]
    rfl

/-- Logging changes nothing about an invocation. -/
theorem invoke_of_logged {boundary : Boundary σ} {schema : Schema ρ} {rules : ρ → ρ → Intents} {s t : Logged σ}
    {outcome : Outcome} (h : invoke boundary.logged schema rules s = (outcome, t)) :
    invoke boundary schema rules s.host = (outcome, t.host) := by
  rcases hfirst : fetch boundary.logged .current s with ⟨first, u⟩
  have hcurrent := fetch_of_logged hfirst
  unfold invoke attempt at h ⊢
  cases first with
  | error error =>
    simp only [hfirst, hcurrent] at h ⊢
    cases h
    rfl
  | ok current =>
    rcases hsecond : fetch boundary.logged .previous u with ⟨second, v⟩
    have hprevious := fetch_of_logged hsecond
    cases second with
    | error error =>
      simp only [hfirst, hsecond, hcurrent, hprevious] at h ⊢
      cases h
      rfl
    | ok previous =>
      cases hdecode : decodePair schema current previous with
      | error error =>
        simp only [hfirst, hsecond, hcurrent, hprevious, hdecode] at h ⊢
        cases h
        rfl
      | ok records =>
        obtain ⟨messages, result, hreplayed⟩ := exists_replayed (rules records.current records.previous).entries
        simp only [hfirst, hsecond, hcurrent, hprevious, hdecode, hreplayed.report_eq, sendAll_logged] at h ⊢
        cases result with
        | error error =>
          cases h
          rfl
        | ok errors =>
          cases h
          rfl

/-- The rules matter only through what they make of the records they are applied to. -/
theorem invoke_congr (boundary : Boundary σ) (schema : Schema ρ) {rules rules' : ρ → ρ → Intents} {s : σ}
    (h : ∀ records, Applied boundary schema s records →
      rules records.current records.previous = rules' records.current records.previous) :
    invoke boundary.logged schema rules ⟨[], s⟩ = invoke boundary.logged schema rules' ⟨[], s⟩ := by
  obtain ⟨first, result, t, hcurrent⟩ := exists_fetched boundary .current s
  cases result with
  | error error => simp only [invoke, attempt, hcurrent.fetch_logged_eq]
  | ok current =>
    obtain ⟨second, result, u, hprevious⟩ := exists_fetched boundary .previous t
    cases result with
    | error error => simp only [invoke, attempt, hcurrent.fetch_logged_eq, hprevious.fetch_logged_eq]
    | ok previous =>
      cases hdecode : decodePair schema current previous with
      | error error => simp only [invoke, attempt, hcurrent.fetch_logged_eq, hprevious.fetch_logged_eq, hdecode]
      | ok records =>
        have hrules := h records ⟨_, _, _, _, _, _, hcurrent, hprevious, hdecode⟩
        simp only [invoke, attempt, hcurrent.fetch_logged_eq, hprevious.fetch_logged_eq, hdecode, hrules]

/-- The protocol of an invocation over an arbitrary host. Its calls are those of its course and, only if it
    was aborted, one diagnostic with the reason behind them; and no rules are applied but to the records of
    two snapshots that were both fetched and decoded. -/
theorem invoke_course_iff (boundary : Boundary σ) (schema : Schema ρ) (rules : ρ → ρ → Intents) (s : σ) :
    (∀ log outcome, ((invoke boundary.logged schema rules ⟨[], s⟩).2.log = log ∧
        (invoke boundary.logged schema rules ⟨[], s⟩).1 = outcome) ↔
      ∃ calls, Course boundary schema rules s calls outcome ∧ log = calls ++ outcome.closing.map .sent) ∧
    ∀ rules' : ρ → ρ → Intents, (∀ records, Applied boundary schema s records →
        rules records.current records.previous = rules' records.current records.previous) →
      invoke boundary.logged schema rules ⟨[], s⟩ = invoke boundary.logged schema rules' ⟨[], s⟩ := by
  refine ⟨fun log outcome => ⟨?_, ?_⟩, fun rules' h => invoke_congr boundary schema h⟩
  · rintro ⟨rfl, rfl⟩
    obtain ⟨calls, outcome, hcourse⟩ := exists_course boundary schema rules s
    obtain ⟨t, heq⟩ := hcourse.invoke_eq
    rw [heq]
    exact ⟨calls, hcourse, rfl⟩
  · rintro ⟨calls, hcourse, rfl⟩
    obtain ⟨t, heq⟩ := hcourse.invoke_eq
    rw [heq]
    exact ⟨rfl, rfl⟩

end RecordGate
