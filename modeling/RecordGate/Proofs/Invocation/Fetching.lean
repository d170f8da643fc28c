import RecordGate.Transfer.Basic

/-! # Fetching over any host

What a fetch does depends on what the host answers and on nothing else. `Fetched` lists the four ways it can
go, with the calls made, what the fetch gives and the state of the host after it; there is always exactly one
(`exists_fetched`, `Fetched.unique`). -/

namespace RecordGate

/-- The course of a fetch over a host in some state: the calls, the result, and the state of the host after
    them. -/
inductive Fetched {σ : Type} (boundary : Boundary σ) (snapshot : Snapshot) (s : σ) :
    List Exchange → Except TransferError (List UInt8) → σ → Prop where
  /-- The host announces a negative size, and is not asked again. -/
  | negative {size : Int32} {t : σ} : boundary.probe snapshot s = (size, t) → size.toInt < 0 →
      Fetched boundary snapshot s [.probe snapshot size] (.error (.invalidSize snapshot size)) t
  /-- The host announces nothing, and is not asked again. -/
  | nothing {size : Int32} {t : σ} : boundary.probe snapshot s = (size, t) → size.toInt = 0 →
      Fetched boundary snapshot s [.probe snapshot size] (.ok []) t
  /-- The host fills a buffer of the size it announced, and reports that size again. -/
  | filled {size : Int32} {filled : Filled} {t u : σ} : boundary.probe snapshot s = (size, t) → 0 < size.toInt →
      boundary.fill snapshot size.toInt.toNat (fun _ => 0) t = (filled, u) → filled.reported = size →
      Fetched boundary snapshot s [.probe snapshot size, .fill snapshot size.toInt.toNat size]
        (.ok (bufferBytes size.toInt.toNat filled.byte)) u
  /-- The host is given a buffer of the size it announced, and reports another size. -/
  | mismatched {size : Int32} {filled : Filled} {t u : σ} : boundary.probe snapshot s = (size, t) →
      0 < size.toInt → boundary.fill snapshot size.toInt.toNat (fun _ => 0) t = (filled, u) →
      filled.reported ≠ size →
      Fetched boundary snapshot s [.probe snapshot size, .fill snapshot size.toInt.toNat filled.reported]
        (.error (.sizeMismatch snapshot size.toInt.toNat filled.reported)) u

section
variable {σ : Type} {boundary : Boundary σ} {snapshot : Snapshot}

/-- The fetch does what its course says. -/
theorem Fetched.fetch_eq {s t : σ} {calls : List Exchange} {result : Except TransferError (List UInt8)}
    (h : Fetched boundary snapshot s calls result t) : fetch boundary snapshot s = (result, t) := by
  unfold fetch
  cases h with
  | negative hprobe hsize =>
    simp only [hprobe, Int32.lt_iff_toInt_lt, Int32.toInt_zero]
    rw [if_pos hsize]
  | nothing hprobe hsize =>
    simp only [hprobe, Int32.lt_iff_toInt_lt, Int32.toInt_zero]
    rw [if_neg (by omega), if_pos (by omega)]
  | filled hprobe hsize hfill hsame =>
    simp only [hprobe, hfill, Int32.lt_iff_toInt_lt, Int32.toInt_zero]
    rw [if_neg (by omega), if_neg (by omega), if_pos hsame]
  | mismatched hprobe hsize hfill hother =>
    simp only [hprobe, hfill, Int32.lt_iff_toInt_lt, Int32.toInt_zero]
    rw [if_neg (by omega), if_neg (by omega), if_neg hother]

theorem Boundary.logged_probe {s t : σ} {size : Int32} (h : boundary.probe snapshot s = (size, t))
    (log : List Exchange) :
    boundary.logged.probe snapshot ⟨log, s⟩ = (size, ⟨log ++ [.probe snapshot size], t⟩) := by
  simp only [Boundary.logged, h]

theorem Boundary.logged_fill {s t : σ} {room : Nat} {buffer : Nat → UInt8} {filled : Filled}
    (h : boundary.fill snapshot room buffer s = (filled, t)) (log : List Exchange) :
    boundary.logged.fill snapshot room buffer ⟨log, s⟩ =
      (filled, ⟨log ++ [.fill snapshot room filled.reported], t⟩) := by
  simp only [Boundary.logged, h]

/-- The same course over the logged host puts its calls behind those before it. -/
theorem Fetched.logged {s t : σ} {calls : List Exchange} {result : Except TransferError (List UInt8)}
    (h : Fetched boundary snapshot s calls result t) (log : List Exchange) :
    Fetched boundary.logged snapshot ⟨log, s⟩ calls result ⟨log ++ calls, t⟩ := by
  cases h with
  | negative hprobe hsize => exact .negative (Boundary.logged_probe hprobe log) hsize
  | nothing hprobe hsize => exact .nothing (Boundary.logged_probe hprobe log) hsize
  | filled hprobe hsize hfill hsame =>
    have hlogged := Fetched.filled (Boundary.logged_probe hprobe log) hsize
      (Boundary.logged_fill hfill _) hsame
    rw [List.append_assoc, hsame] at hlogged
    exact hlogged
  | mismatched hprobe hsize hfill hother =>
    have hlogged := Fetched.mismatched (Boundary.logged_probe hprobe log) hsize
      (Boundary.logged_fill hfill _) hother
    rw [List.append_assoc] at hlogged
    exact hlogged

theorem Fetched.fetch_logged_eq {s t : σ} {calls : List Exchange}
    {result : Except TransferError (List UInt8)} (h : Fetched boundary snapshot s calls result t)
    (log : List Exchange) : fetch boundary.logged snapshot ⟨log, s⟩ = (result, ⟨log ++ calls, t⟩) :=
  (h.logged log).fetch_eq

/-- Whatever the host answers, the fetch takes one of the courses. -/
theorem exists_fetched (boundary : Boundary σ) (snapshot : Snapshot) (s : σ) :
    ∃ calls result t, Fetched boundary snapshot s calls result t := by
  rcases hprobe : boundary.probe snapshot s with ⟨size, t⟩
  rcases Int.lt_trichotomy size.toInt 0 with hnegative | hzero | hpositive
  · exact ⟨_, _, _, .negative hprobe hnegative⟩
  · exact ⟨_, _, _, .nothing hprobe hzero⟩
  · rcases hfill : boundary.fill snapshot size.toInt.toNat (fun _ => 0) t with ⟨filled, u⟩
    by_cases hsame : filled.reported = size
    · exact ⟨_, _, _, .filled hprobe hpositive hfill hsame⟩
    · exact ⟨_, _, _, .mismatched hprobe hpositive hfill hsame⟩

/-- Logging changes nothing about a fetch. -/
theorem fetch_of_logged {s t : Logged σ} {result : Except TransferError (List UInt8)}
    (h : fetch boundary.logged snapshot s = (result, t)) : fetch boundary snapshot s.host = (result, t.host) := by
  obtain ⟨calls, result', u, hfetched⟩ := exists_fetched boundary snapshot s.host
  rw [hfetched.fetch_logged_eq s.log] at h
  cases h
  exact hfetched.fetch_eq

/-- The answers of the host leave a fetch only one course. -/
theorem Fetched.unique {s t t' : σ} {calls calls' : List Exchange}
    {result result' : Except TransferError (List UInt8)} (h : Fetched boundary snapshot s calls result t)
    (h' : Fetched boundary snapshot s calls' result' t') : calls = calls' ∧ result = result' ∧ t = t' := by
  have heq := (h.fetch_logged_eq []).symm.trans (h'.fetch_logged_eq [])
  simp only [List.nil_append, Prod.mk.injEq, Logged.mk.injEq] at heq
  obtain ⟨hresult, hcalls, ht⟩ := heq
  exact ⟨hcalls, hresult, ht⟩

end
end RecordGate
