import RecordGate.Proofs.Json.Grammar

/-! # Collecting members

Members that are inserted one behind the other are collected (`collected_collect`), and members are collected
in one way only (`Collected.unique`). Members that are in order already are what they are collected to
(`collected_self`). -/

namespace RecordGate.Json

/-- Inserts members that are written one behind the other. -/
def collect (members written : List (String × Value)) : List (String × Value) :=
  written.foldl (fun members member => insertMember member.1 member.2 members) members

/-! ### Inserting -/

theorem lookup_cons_of_ne {key other : String} (h : key ≠ other) (value : Value)
    (members : List (String × Value)) : ((other, value) :: members).lookup key = members.lookup key := by
  rw [List.lookup_cons, beq_false_of_ne h]

theorem lookup_insertMember (key other : String) (value : Value) (members : List (String × Value)) :
    (insertMember other value members).lookup key = ((other, value) :: members).lookup key := by
  induction members with
  | nil => rfl
  | cons member members ih =>
    obtain ⟨k, v⟩ := member
    unfold insertMember
    split
    · rfl
    · split
      · next hsame =>
        by_cases hkey : key = other
        · rw [hkey, List.lookup_cons_self, List.lookup_cons_self]
        · rw [lookup_cons_of_ne hkey, lookup_cons_of_ne hkey, lookup_cons_of_ne (hsame ▸ hkey)]
      · next hother =>
        by_cases hkey : key = k
        · rw [hkey, List.lookup_cons_self, lookup_cons_of_ne (Ne.symm hother), List.lookup_cons_self]
        · rw [lookup_cons_of_ne hkey, ih]
          by_cases hsame : key = other
          · rw [hsame, List.lookup_cons_self, List.lookup_cons_self]
          · rw [lookup_cons_of_ne hsame, lookup_cons_of_ne hsame, lookup_cons_of_ne hkey]

theorem mem_of_mem_insertMember {key : String} {value : Value} {members : List (String × Value)}
    {member : String × Value} (h : member ∈ insertMember key value members) :
    member = (key, value) ∨ member ∈ members := by
  induction members with
  | nil => exact .inl (List.mem_singleton.mp h)
  | cons first members ih =>
    obtain ⟨k, v⟩ := first
    unfold insertMember at h
    split at h
    · exact List.mem_cons.mp h
    · split at h
      · rcases List.mem_cons.mp h with h | h
        · exact .inl h
        · exact .inr (List.mem_cons_of_mem _ h)
      · rcases List.mem_cons.mp h with h | h
        · exact .inr (h ▸ List.mem_cons_self)
        · exact (ih h).imp_right (List.mem_cons_of_mem _)

theorem lt_of_not_lt_of_ne {s t : String} (hlt : ¬s < t) (hne : s ≠ t) : t < s :=
  String.not_le.mp fun hle => hne (String.le_antisymm hle (String.not_lt.mp hlt))

theorem insertMember_ordered {members : List (String × Value)}
    (h : (members.map Prod.fst).Pairwise (· < ·)) (key : String) (value : Value) :
    ((insertMember key value members).map Prod.fst).Pairwise (· < ·) := by
  induction members with
  | nil => exact List.pairwise_singleton _ _
  | cons member members ih =>
    obtain ⟨k, v⟩ := member
    obtain ⟨hfirst, hrest⟩ := List.pairwise_cons.mp h
    unfold insertMember
    split
    · next hlt =>
      refine List.pairwise_cons.mpr ⟨fun other hother => ?_, h⟩
      rcases List.mem_cons.mp hother with rfl | hother
      · exact hlt
      · exact String.lt_trans hlt (hfirst other hother)
    · split
      · next hsame => exact List.pairwise_cons.mpr ⟨hsame ▸ hfirst, hrest⟩
      · next hlt hne =>
        refine List.pairwise_cons.mpr ⟨fun other hother => ?_, ih hrest⟩
        obtain ⟨member, hmember, rfl⟩ := List.mem_map.mp hother
        rcases mem_of_mem_insertMember hmember with rfl | hmember
        · exact lt_of_not_lt_of_ne hlt hne
        · exact hfirst _ (List.mem_map_of_mem hmember)

/-! ### Collecting -/

theorem lookup_collect (key : String) (members written : List (String × Value)) :
    (collect members written).lookup key = (written.reverse ++ members).lookup key := by
  induction written generalizing members with
  | nil => rfl
  | cons member written ih =>
    have hnext := ih (insertMember member.1 member.2 members)
    rw [List.lookup_append, lookup_insertMember, ← List.lookup_append] at hnext
    rw [List.reverse_cons, List.append_assoc]
    exact hnext

theorem collect_ordered {members : List (String × Value)} (h : (members.map Prod.fst).Pairwise (· < ·))
    (written : List (String × Value)) : ((collect members written).map Prod.fst).Pairwise (· < ·) := by
  induction written generalizing members with
  | nil => exact h
  | cons member written ih => exact ih (insertMember_ordered h member.1 member.2)

theorem mem_of_mem_collect {members written : List (String × Value)} {member : String × Value}
    (h : member ∈ collect members written) : member ∈ members ∨ member ∈ written := by
  induction written generalizing members with
  | nil => exact .inl h
  | cons first written ih =>
    rcases ih h with h | h
    · exact (mem_of_mem_insertMember h).elim (fun h => .inr (h ▸ List.mem_cons_self)) .inl
    · exact .inr (List.mem_cons_of_mem _ h)

theorem collected_collect (written : List (String × Value)) : Collected written (collect [] written) where
  ordered := collect_ordered .nil written
  lookup key := by rw [lookup_collect, List.append_nil]

theorem mem_keys_of_lookup {key : String} {value : Value} {members : List (String × Value)}
    (h : members.lookup key = some value) : key ∈ members.map Prod.fst := by
  obtain ⟨before, after, rfl, -⟩ := List.lookup_eq_some_iff.mp h
  exact List.mem_map_of_mem (f := Prod.fst) (List.mem_append_right before List.mem_cons_self)

theorem lookup_eq_none_of_lt {key : String} {members : List (String × Value)}
    (h : ∀ other ∈ members.map Prod.fst, key < other) : members.lookup key = none := by
  cases hlookup : members.lookup key with
  | none => rfl
  | some value => exact absurd (h key (mem_keys_of_lookup hlookup)) (String.lt_irrefl key)

/-- Members in order are known by what is looked up in them. -/
theorem eq_of_lookup {members others : List (String × Value)} (hmembers : (members.map Prod.fst).Pairwise (· < ·))
    (hothers : (others.map Prod.fst).Pairwise (· < ·)) (h : ∀ key, members.lookup key = others.lookup key) :
    members = others := by
  induction members generalizing others with
  | nil =>
    cases others with
    | nil => rfl
    | cons other others =>
      have hfirst := h other.1
      rw [List.lookup_cons_self] at hfirst
      cases hfirst
  | cons member members ih =>
    obtain ⟨key, value⟩ := member
    cases others with
    | nil =>
      have hfirst := h key
      rw [List.lookup_cons_self] at hfirst
      cases hfirst
    | cons other others =>
      obtain ⟨key', value'⟩ := other
      obtain ⟨hfirst, hrest⟩ := List.pairwise_cons.mp hmembers
      obtain ⟨hfirst', hrest'⟩ := List.pairwise_cons.mp hothers
      have hkey : key = key' := by
        have hright := mem_keys_of_lookup ((h key).symm.trans List.lookup_cons_self)
        have hleft := mem_keys_of_lookup ((h key').trans List.lookup_cons_self)
        rcases List.mem_cons.mp hright with heq | hright
        · exact heq
        · rcases List.mem_cons.mp hleft with heq | hleft
          · exact heq.symm
          · exact absurd (hfirst' key hright) (String.lt_asymm (hfirst key' hleft))
      subst hkey
      have hvalue : value = value' := by
        have heq := h key
        rw [List.lookup_cons_self, List.lookup_cons_self] at heq
        exact Option.some.inj heq
      have htail : ∀ other, members.lookup other = others.lookup other := by
        intro other
        by_cases hother : other = key
        · rw [hother, lookup_eq_none_of_lt hfirst, lookup_eq_none_of_lt hfirst']
        · have heq := h other
          rwa [lookup_cons_of_ne hother, lookup_cons_of_ne hother] at heq
      rw [hvalue, ih hrest hrest' htail]

theorem Collected.unique {written members others : List (String × Value)} (h : Collected written members)
    (h' : Collected written others) : members = others :=
  eq_of_lookup h.ordered h'.ordered fun key => (h.lookup key).trans (h'.lookup key).symm

theorem Collected.collect_eq {written members : List (String × Value)} (h : Collected written members) :
    collect [] written = members :=
  (collected_collect written).unique h

/-- Every member that is left was written. -/
theorem Collected.mem {written members : List (String × Value)} (h : Collected written members)
    {member : String × Value} (hmember : member ∈ members) : member ∈ written := by
  rw [← h.collect_eq] at hmember
  exact (mem_of_mem_collect hmember).resolve_left List.not_mem_nil

/-- Where no key comes twice it does not matter from which end a member is looked up. -/
theorem lookup_reverse {members : List (String × Value)} (h : (members.map Prod.fst).Nodup) (key : String) :
    members.reverse.lookup key = members.lookup key := by
  induction members with
  | nil => rfl
  | cons member members ih =>
    obtain ⟨k, v⟩ := member
    obtain ⟨hfirst, hrest⟩ := List.nodup_cons.mp h
    rw [List.reverse_cons, List.lookup_append, ih hrest]
    by_cases hkey : key = k
    · have hnone : members.lookup k = none := by
        cases hlookup : members.lookup k with
        | none => rfl
        | some value => exact absurd (mem_keys_of_lookup hlookup) hfirst
      rw [hkey, hnone, List.lookup_cons_self, List.lookup_cons_self]
      rfl
    · rw [lookup_cons_of_ne hkey, lookup_cons_of_ne hkey]
      exact Option.or_none

theorem nodup_of_ordered {members : List (String × Value)} (h : (members.map Prod.fst).Pairwise (· < ·)) :
    (members.map Prod.fst).Nodup := by
  rw [List.nodup_iff_pairwise_ne]
  refine h.imp fun {key other} hlt heq => ?_
  rw [heq] at hlt
  exact String.lt_irrefl other hlt

/-- Members that are in order stay as they are. -/
theorem collected_self {members : List (String × Value)} (h : (members.map Prod.fst).Pairwise (· < ·)) :
    Collected members members where
  ordered := h
  lookup key := (lookup_reverse (nodup_of_ordered h) key).symm

end RecordGate.Json
