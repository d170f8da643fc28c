import RecordGate.Host.RecordPair
import RecordGate.Proofs.Json.Unambiguous
import RecordGate.Proofs.Record.Written

/-! # Transport of records

The host prints values and a validator reads them back, and nothing is lost on the way (`transport_lossless`).
The texts that the host makes of files are canonical: loaded again they are made into themselves, and two files
are made into the same text exactly if they denote the same value. What a file denotes depends neither on its
blanks nor on how it spells strings, and of its members only on the last of each key. -/

namespace RecordGate.Host
open Json Record

/-- A value that its text holds without loss: its members are in order, its numbers are integers of 64 bits, and
    it nests no more than a reader allows. -/
structure Portable (value : Value) : Prop where
  ordered : value.Ordered
  integral : value.Integral
  nesting : value.nesting ≤ nestingLimit

theorem Portable.denotes {value : Value} (h : Portable value) :
    Denotes nestingLimit (Text.bytes value.text) value :=
  value.text_denotes h.ordered h.integral h.nesting

/-! ### Pairs of values -/

/-- The pair was made of values, and this is the value of the snapshot. -/
inductive RecordPair.Holds : RecordPair → Snapshot → Value → Prop where
  | current (value : Value) (previous : Option Value) : Holds (.ofValues value previous) .current value
  | previous (value earlier : Value) : Holds (.ofValues value (some earlier)) .previous earlier

theorem RecordPair.Holds.text_eq {records : RecordPair} {snapshot : Snapshot} {value : Value}
    (h : records.Holds snapshot value) : records.text snapshot = value.text := by
  cases h <;> rfl

theorem RecordPair.Holds.bytes_eq {records : RecordPair} {snapshot : Snapshot} {value : Value}
    (h : records.Holds snapshot value) : records.bytes snapshot = Text.bytes value.text :=
  congrArg Text.bytes h.text_eq

/-- A value that the pair holds is decoded from its snapshot. -/
theorem RecordPair.Holds.decode {records : RecordPair} {snapshot : Snapshot} {value : Value}
    (h : records.Holds snapshot value) (hportable : Portable value) :
    decode Schema.value snapshot (records.bytes snapshot) = .ok value := by
  rw [h.bytes_eq]
  exact decode_value hportable.denotes snapshot

/-! ### Files -/

/-- There is a file at the path, and it denotes the value. -/
def FileDenotes (files : Files) (path : String) (value : Value) : Prop :=
  ∃ bytes, files path = .ok bytes ∧ Denotes nestingLimit bytes value

theorem readRecord_eq_ok_iff {files : Files} {path : String} {value : Value} :
    RecordPair.readRecord files path = .ok value ↔ FileDenotes files path value := by
  unfold RecordPair.readRecord
  constructor
  · intro h
    split at h
    · cases h
    · next bytes hfile => exact ⟨bytes, hfile, parse_eq_ok_iff.mp (mapError_eq_ok.mp h)⟩
  · rintro ⟨bytes, hfile, hdenotes⟩
    rw [hfile]
    exact mapError_eq_ok.mpr (parse_eq_ok_iff.mpr hdenotes)

/-- A pair that is loaded from files is made of the values that the files denote. -/
theorem ofFiles_eq_ok_iff {files : Files} {current : String} {previous : Option String} {records : RecordPair} :
    RecordPair.ofFiles files current previous = .ok records ↔
      ∃ value earlier, FileDenotes files current value ∧ Option.Rel (FileDenotes files) previous earlier ∧
        records = .ofValues value earlier := by
  unfold RecordPair.ofFiles
  constructor
  · intro h
    obtain ⟨value, hcurrent, h⟩ := bind_eq_ok.mp h
    have hvalue := readRecord_eq_ok_iff.mp hcurrent
    cases previous with
    | none =>
      cases h
      exact ⟨value, none, hvalue, .none, rfl⟩
    | some path =>
      obtain ⟨earlier, hprevious, h⟩ := bind_eq_ok.mp h
      cases h
      exact ⟨value, some earlier, hvalue, .some (readRecord_eq_ok_iff.mp hprevious), rfl⟩
  · rintro ⟨value, earlier, hvalue, hearlier, rfl⟩
    refine bind_eq_ok.mpr ⟨value, readRecord_eq_ok_iff.mpr hvalue, ?_⟩
    cases hearlier with
    | none => rfl
    | some hearlier => exact bind_eq_ok.mpr ⟨_, readRecord_eq_ok_iff.mpr hearlier, rfl⟩

/-- The path of a snapshot in a pair of paths. -/
def pathOf (current : String) (previous : Option String) : Snapshot → Option String
  | .current => some current
  | .previous => previous

/-- All numbers in the values that the files denote are integers of 64 bits. -/
def FilesIntegral (files : Files) (current : String) (previous : Option String) : Prop :=
  ∀ snapshot, ∀ path ∈ pathOf current previous snapshot, ∀ value, FileDenotes files path value → value.Integral

/-- What a pair holds that was loaded from files is what the file of the snapshot denotes. -/
theorem holds_of_ofFiles {files : Files} {current : String} {previous : Option String} {records : RecordPair}
    (h : RecordPair.ofFiles files current previous = .ok records) {snapshot : Snapshot} {path : String}
    (hpath : pathOf current previous snapshot = some path) :
    ∃ value, FileDenotes files path value ∧ records.Holds snapshot value := by
  obtain ⟨value, earlier, hvalue, hearlier, rfl⟩ := ofFiles_eq_ok_iff.mp h
  cases snapshot with
  | current =>
    cases hpath
    exact ⟨value, hvalue, .current value earlier⟩
  | previous =>
    cases hearlier with
    | none => cases hpath
    | some hearlier =>
      cases hpath
      exact ⟨_, hearlier, .previous value _⟩

theorem FileDenotes.portable {files : Files} {path : String} {value : Value} (h : FileDenotes files path value)
    (hintegral : value.Integral) : Portable value := by
  obtain ⟨bytes, -, hdenotes⟩ := h
  exact ⟨hdenotes.settled.1, hintegral, hdenotes.settled.2⟩

theorem FileDenotes.unique {files : Files} {path : String} {value other : Value}
    (h : FileDenotes files path value) (h' : FileDenotes files path other) : value = other := by
  obtain ⟨bytes, hfile, hdenotes⟩ := h
  obtain ⟨bytes', hfile', hdenotes'⟩ := h'
  rw [hfile] at hfile'
  cases hfile'
  exact hdenotes.unique hdenotes'

/-! ### Nothing is lost -/

/-- The texts of a pair are written to files, the previous one if the pair was made with one. -/
structure Saved (records : RecordPair) (previous : Option String) (copies : Files) (current' : String)
    (previous' : Option String) : Prop where
  current : copies current' = .ok (records.bytes .current)
  previous : Option.Rel (fun _ path => copies path = .ok (records.bytes .previous)) previous previous'

/-- A pair that was loaded from files is loaded again from its own texts. -/
theorem ofFiles_saved {files : Files} {current : String} {previous : Option String} {records : RecordPair}
    (h : RecordPair.ofFiles files current previous = .ok records)
    (hintegral : FilesIntegral files current previous) {copies : Files} {current' : String}
    {previous' : Option String} (hsaved : Saved records previous copies current' previous') :
    RecordPair.ofFiles copies current' previous' = .ok records := by
  obtain ⟨value, earlier, hvalue, hearlier, rfl⟩ := ofFiles_eq_ok_iff.mp h
  have hportable := hvalue.portable (hintegral .current current rfl value hvalue)
  refine ofFiles_eq_ok_iff.mpr ⟨value, earlier, ⟨_, hsaved.current, hportable.denotes⟩, ?_, rfl⟩
  have hprevious := hsaved.previous
  cases hearlier with
  | none =>
    cases hprevious
    exact .none
  | @some path earlier hearlier =>
    have hportable := hearlier.portable (hintegral .previous path rfl earlier hearlier)
    cases hprevious with
    | some hcopy => exact .some ⟨_, hcopy, hportable.denotes⟩

/-- Two files are made into the same bytes exactly if they denote the same value. -/
theorem bytes_eq_iff {files others : Files} {current current' : String} {previous previous' : Option String}
    {records records' : RecordPair} (h : RecordPair.ofFiles files current previous = .ok records)
    (h' : RecordPair.ofFiles others current' previous' = .ok records')
    (hintegral : FilesIntegral files current previous) (hintegral' : FilesIntegral others current' previous')
    {snapshot snapshot' : Snapshot} {path path' : String} (hpath : pathOf current previous snapshot = some path)
    (hpath' : pathOf current' previous' snapshot' = some path') :
    records.bytes snapshot = records'.bytes snapshot' ↔
      ∀ value, FileDenotes files path value ↔ FileDenotes others path' value := by
  obtain ⟨value, hvalue, hholds⟩ := holds_of_ofFiles h hpath
  obtain ⟨value', hvalue', hholds'⟩ := holds_of_ofFiles h' hpath'
  have hportable := hvalue.portable (hintegral snapshot path hpath value hvalue)
  have hportable' := hvalue'.portable (hintegral' snapshot' path' hpath' value' hvalue')
  rw [hholds.bytes_eq, hholds'.bytes_eq]
  constructor
  · intro hbytes other
    have hsame := Value.eq_of_text hportable.integral hportable'.integral (Text.bytes_injective hbytes)
    subst hsame
    exact ⟨fun hother => hvalue.unique hother ▸ hvalue', fun hother => hvalue'.unique hother ▸ hvalue⟩
  · intro hdenotes
    rw [hvalue'.unique ((hdenotes value).mp hvalue)]

/-- Records are transported without loss, and their texts are canonical. -/
theorem transport_lossless :
    (∀ value previous, Portable value → (∀ earlier ∈ previous, Portable earlier) →
      decode Schema.value .current ((RecordPair.ofValues value previous).bytes .current) = .ok value ∧
      decode Schema.value .previous ((RecordPair.ofValues value previous).bytes .previous) =
        .ok (previous.getD .null)) ∧
    (∀ files current previous records, RecordPair.ofFiles files current previous = .ok records →
      FilesIntegral files current previous →
      (∀ copies current' previous', Saved records previous copies current' previous' →
        RecordPair.ofFiles copies current' previous' = .ok records) ∧
      ∀ others current' previous' records', RecordPair.ofFiles others current' previous' = .ok records' →
        FilesIntegral others current' previous' → ∀ snapshot snapshot' path path',
        pathOf current previous snapshot = some path → pathOf current' previous' snapshot' = some path' →
        (records.bytes snapshot = records'.bytes snapshot' ↔
          ∀ value, FileDenotes files path value ↔ FileDenotes others path' value)) := by
  refine ⟨fun value previous hvalue hprevious => ⟨(RecordPair.Holds.current value previous).decode hvalue, ?_⟩,
    fun files current previous records h hintegral =>
      ⟨fun copies current' previous' hsaved => ofFiles_saved h hintegral hsaved,
        fun others current' previous' records' h' hintegral' snapshot snapshot' path path' hpath hpath' =>
          bytes_eq_iff h h' hintegral hintegral' hpath hpath'⟩⟩
  cases previous with
  | none => rfl
  | some earlier => exact (RecordPair.Holds.previous value earlier).decode (hprevious earlier rfl)

/-- Files that all have the same content. -/
def sameFiles (text : String) : Files :=
  fun _ => .ok (Text.bytes text)

theorem sameFiles_integral {text path : String} {found : Value} (hfound : found.Integral)
    (h : parse (Text.bytes text) = .ok found) : FilesIntegral (sameFiles text) path none := by
  intro snapshot other _ value hvalue
  have hdenotes : FileDenotes (sameFiles text) other found := ⟨_, rfl, parse_eq_ok_iff.mp h⟩
  exact hdenotes.unique hvalue ▸ hfound

theorem transport_lossless_array :
    decode Schema.value .previous ((RecordPair.ofValues .null (some (.array [.int 5]))).bytes .previous) =
        .ok (.array [.int 5]) ∧
      RecordPair.ofFiles (sameFiles "[5]") "again" none = .ok ⟨"[5]", ""⟩ ∧
      ∀ value, FileDenotes (sameFiles " [ 5 ] ") "record" value ↔
        FileDenotes (sameFiles "[5]") "again" value := by
  have hfive : Value.Integral (.array [.int 5]) := ⟨(by decide : IntegerInRange 5), trivial⟩
  have hportable : ∀ earlier ∈ some (Value.array [.int 5]), Portable earlier := by
    intro earlier hearlier
    cases hearlier
    exact ⟨⟨trivial, trivial⟩, hfive, by decide⟩
  have hspaced : RecordPair.ofFiles (sameFiles " [ 5 ] ") "record" none = .ok ⟨"[5]", ""⟩ := rfl
  have hcompact : RecordPair.ofFiles (sameFiles "[5]") "again" none = .ok ⟨"[5]", ""⟩ := rfl
  have hfiles := transport_lossless.2 _ _ none _ hspaced (sameFiles_integral hfive rfl)
  exact ⟨(transport_lossless.1 .null (some (.array [.int 5])) ⟨trivial, trivial, Nat.zero_le _⟩ hportable).2,
    hfiles.1 (sameFiles "[5]") "again" none ⟨rfl, .none⟩,
    (hfiles.2 _ _ none _ hcompact (sameFiles_integral hfive rfl) .current .current _ _ rfl rfl).mp rfl⟩

end RecordGate.Host
