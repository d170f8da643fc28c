import RecordGate.Proofs.Invocation.Fetching

/-! # Hosts that keep their contract

A host may exchange a record at any time, also between the two calls of a fetch. It keeps its contract if it
reports the size of the record that it holds when it is asked, and if it writes that record whole or not at
all (`Boundary.Honest`). Over such a host a fetch never gives a torn record (`fetch_untorn`): the size that
the second call reports betrays every exchange but one by a record of the same length, and that one is
fetched whole. -/

namespace RecordGate

/-! ### Buffers and sizes -/

theorem length_bufferBytes (room : Nat) (buffer : Nat → UInt8) : (bufferBytes room buffer).length = room := by
  simp [bufferBytes]

theorem bufferBytes_overlay (record : List UInt8) (buffer : Nat → UInt8) :
    bufferBytes record.length (overlay record buffer) = record := by
  apply List.ext_getElem
  · exact length_bufferBytes _ _
  · intro i hi hlength
    simp [bufferBytes, overlay, hlength]

theorem toInt_ofNat {n : Nat} (h : n < 0x80000000) : (Int32.ofNat n).toInt = n :=
  Int32.toInt_ofNat_of_lt (by omega)

theorem eq_ofNat_of_toInt {size : Int32} {n : Nat} (h : size.toInt = n) : size = Int32.ofNat n := by
  have hsmall : size.toInt < 0x80000000 := size.toInt_lt
  exact Int32.toInt_inj.mp (h.trans (toInt_ofNat (by omega)).symm)

/-! ### The contract -/

variable {σ : Type}

/-- The host holds a record of each snapshot, in every state another one if it likes. Both calls report the
    size of the record, and a fill copies it to the start of the buffer if all of it fits there. -/
structure Boundary.Honest (boundary : Boundary σ) (held : Snapshot → σ → List UInt8) : Prop where
  probe : ∀ snapshot s, (boundary.probe snapshot s).1.toInt = (held snapshot s).length
  reported : ∀ snapshot room buffer s,
    (boundary.fill snapshot room buffer s).1.reported.toInt = (held snapshot s).length
  written : ∀ snapshot room buffer s, bufferBytes room (boundary.fill snapshot room buffer s).1.byte =
    bufferBytes room (if (held snapshot s).length ≤ room then overlay (held snapshot s) buffer else buffer)

namespace Boundary.Honest
variable {boundary : Boundary σ} {held : Snapshot → σ → List UInt8} {snapshot : Snapshot} {s : σ}
  {before after : List UInt8}

theorem probe_eq (honest : boundary.Honest held) (hbefore : held snapshot s = before) :
    boundary.probe snapshot s = (Int32.ofNat before.length, (boundary.probe snapshot s).2) := by
  have hsize := honest.probe snapshot s
  rw [hbefore] at hsize
  rw [← eq_ofNat_of_toInt hsize]

theorem size_lt (honest : boundary.Honest held) (hbefore : held snapshot s = before) :
    before.length < 0x80000000 := by
  have hsize := honest.probe snapshot s
  have hsmall := (boundary.probe snapshot s).1.toInt_lt
  rw [hbefore] at hsize
  omega

theorem fill_reported (honest : boundary.Honest held) (hafter : held snapshot s = after) (room : Nat)
    (buffer : Nat → UInt8) : (boundary.fill snapshot room buffer s).1.reported = Int32.ofNat after.length := by
  have hsize := honest.reported snapshot room buffer s
  rw [hafter] at hsize
  exact eq_ofNat_of_toInt hsize

/-- A buffer of the size of the record is filled with the record. -/
theorem fill_bytes (honest : boundary.Honest held) (hafter : held snapshot s = after) (buffer : Nat → UInt8) :
    bufferBytes after.length (boundary.fill snapshot after.length buffer s).1.byte = after := by
  have hbytes := honest.written snapshot after.length buffer s
  rw [hafter, if_pos (Nat.le_refl _), bufferBytes_overlay] at hbytes
  exact hbytes

/-- There is no fill if the host holds nothing when it is probed. -/
theorem fetched_nothing (honest : boundary.Honest held) (hbefore : held snapshot s = []) :
    Fetched boundary snapshot s [.probe snapshot 0] (.ok []) (boundary.probe snapshot s).2 :=
  .nothing (honest.probe_eq hbefore) rfl

/-- A record of the size that was announced is fetched whole, whichever record it is. -/
theorem fetched_whole (honest : boundary.Honest held) (hbefore : held snapshot s = before)
    (hafter : held snapshot (boundary.probe snapshot s).2 = after) (hsome : before ≠ [])
    (hsame : before.length = after.length) :
    ∃ t, Fetched boundary snapshot s [.probe snapshot (Int32.ofNat before.length),
      .fill snapshot before.length (Int32.ofNat before.length)] (.ok after) t := by
  have hsize := toInt_ofNat (honest.size_lt hbefore)
  have hlength := List.length_pos_iff.mpr hsome
  have hreported := honest.fill_reported hafter before.length (fun _ => 0)
  have hbytes := honest.fill_bytes hafter (fun _ => 0)
  rw [← hsame] at hreported hbytes
  rcases hfill : boundary.fill snapshot before.length (fun _ => 0) (boundary.probe snapshot s).2 with ⟨filled, u⟩
  rw [hfill] at hreported hbytes
  have hroom : (Int32.ofNat before.length).toInt.toNat = before.length := by rw [hsize, Int.toNat_natCast]
  have hcourse := Fetched.filled (honest.probe_eq hbefore) (by omega) (by rw [hroom]; exact hfill) hreported
  rw [hroom, hbytes] at hcourse
  exact ⟨u, hcourse⟩

/-- A record of another size than was announced is not taken. -/
theorem fetched_mismatched (honest : boundary.Honest held) (hbefore : held snapshot s = before)
    (hafter : held snapshot (boundary.probe snapshot s).2 = after) (hsome : before ≠ [])
    (hother : before.length ≠ after.length) :
    ∃ t, Fetched boundary snapshot s [.probe snapshot (Int32.ofNat before.length),
      .fill snapshot before.length (Int32.ofNat after.length)]
      (.error (.sizeMismatch snapshot before.length (Int32.ofNat after.length))) t := by
  have hsize := toInt_ofNat (honest.size_lt hbefore)
  have hsize' := toInt_ofNat (honest.size_lt hafter)
  have hlength := List.length_pos_iff.mpr hsome
  have hreported := honest.fill_reported hafter before.length (fun _ => 0)
  rcases hfill : boundary.fill snapshot before.length (fun _ => 0) (boundary.probe snapshot s).2 with ⟨filled, u⟩
  rw [hfill] at hreported
  have hroom : (Int32.ofNat before.length).toInt.toNat = before.length := by rw [hsize, Int.toNat_natCast]
  have hdiffers : filled.reported ≠ Int32.ofNat before.length := by
    rw [hreported]
    intro heq
    rw [heq, hsize] at hsize'
    omega
  have hcourse := Fetched.mismatched (honest.probe_eq hbefore) (by omega) (by rw [hroom]; exact hfill) hdiffers
  rw [hroom, hreported] at hcourse
  exact ⟨u, hcourse⟩

end Boundary.Honest

/-! ### Fetches -/

variable {boundary : Boundary σ} {held : Snapshot → σ → List UInt8}

/-- A fetch over a host that keeps its contract, with the record that the host holds when it is probed and the
    one that it holds when it fills, which may be any two. Nothing is fetched of an empty record, without a
    fill; a record of the size that was announced is fetched whole; and any other is refused with both
    sizes. So what is fetched is one of the two records as it was, and a record that stays is fetched. -/
theorem fetch_untorn (honest : boundary.Honest held) (snapshot : Snapshot) (s : σ) (before after : List UInt8)
    (hbefore : held snapshot s = before) (hafter : held snapshot (boundary.probe snapshot s).2 = after) :
    let (result, t) := fetch boundary.logged snapshot ⟨[], s⟩
    (before = [] → result = .ok [] ∧ t.log = [.probe snapshot 0]) ∧
    (before ≠ [] → t.log = [.probe snapshot (Int32.ofNat before.length),
      .fill snapshot before.length (Int32.ofNat after.length)]) ∧
    (before ≠ [] → (result = .ok after ↔ before.length = after.length)) ∧
    (before ≠ [] → before.length ≠ after.length →
      result = .error (.sizeMismatch snapshot before.length (Int32.ofNat after.length))) ∧
    (∀ bytes, result = .ok bytes → bytes = before ∨ bytes = after) ∧
    (before = after → result = .ok before) := by
  by_cases hsome : before = []
  · subst hsome
    rw [(honest.fetched_nothing hbefore).fetch_logged_eq []]
    refine ⟨fun _ => ⟨rfl, rfl⟩, fun h => absurd rfl h, fun h => absurd rfl h, fun h => absurd rfl h, ?_, fun _ => rfl⟩
    intro bytes hbytes
    cases hbytes
    exact .inl rfl
  · by_cases hsame : before.length = after.length
    · obtain ⟨t, hcourse⟩ := honest.fetched_whole hbefore hafter hsome hsame
      rw [hcourse.fetch_logged_eq []]
      refine ⟨fun h => absurd h hsome, fun _ => ?_, fun _ => ⟨fun _ => hsame, fun _ => rfl⟩,
        fun _ h => absurd hsame h, ?_, fun h => by rw [h]⟩
      · rw [← hsame]
        rfl
      · intro bytes hbytes
        cases hbytes
        exact .inr rfl
    · obtain ⟨t, hcourse⟩ := honest.fetched_mismatched hbefore hafter hsome hsame
      rw [hcourse.fetch_logged_eq []]
      refine ⟨fun h => absurd h hsome, fun _ => rfl, fun _ => ⟨nofun, fun h => absurd h hsame⟩, fun _ _ => rfl,
        nofun, fun h => absurd (congrArg List.length h) hsame⟩

/-! ### A host that exchanges its record -/

/-- A host that holds one record until it is probed, and another one from then on. -/
def exchanging (before after : List UInt8) : Boundary Bool where
  probe _ exchanged := (Int32.ofNat (if exchanged then after else before).length, true)
  fill _ room buffer exchanged :=
    let record := if exchanged then after else before
    (⟨Int32.ofNat record.length, if record.length ≤ room then overlay record buffer else buffer⟩, exchanged)
  send _ exchanged := exchanged

theorem exchanging_honest {before after : List UInt8} (hbefore : before.length < 0x80000000)
    (hafter : after.length < 0x80000000) :
    (exchanging before after).Honest fun _ exchanged => if exchanged then after else before where
  probe _ exchanged := by cases exchanged <;> exact toInt_ofNat ‹_›
  reported _ _ _ exchanged := by cases exchanged <;> exact toInt_ofNat ‹_›
  written _ _ _ _ := rfl

/-- A record that was exchanged for a shorter one is not fetched in part. -/
theorem fetch_untorn_shortened :
    let (result, t) := fetch (exchanging [1, 2, 3] [4]).logged .current ⟨[], false⟩
    t.log = [.probe .current 3, .fill .current 3 1] ∧ result = .error (.sizeMismatch .current 3 1) := by
  have honest : (exchanging [1, 2, 3] [4]).Honest _ := exchanging_honest (by decide) (by decide)
  have h := fetch_untorn honest .current false [1, 2, 3] [4] rfl rfl
  exact ⟨h.2.1 (by decide), h.2.2.2.1 (by decide) (by decide)⟩

end RecordGate
