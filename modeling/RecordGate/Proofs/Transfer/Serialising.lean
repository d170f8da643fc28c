import RecordGate.Proofs.Except
import RecordGate.Proofs.Json.Members
import RecordGate.Transfer.Datum

/-! # What data serialise to

A datum serialises to a value (`Datum.Serialises`) or fails with the first error that is met in it, in the
order in which it is written (`Datum.Fails`), and never both. This is what `encode` computes
(`Datum.encode_eq_ok_iff`, `Datum.encode_eq_error_iff`). -/

namespace RecordGate
open Json

namespace Datum

mutual
/-- The datum serialises to the value. -/
inductive Serialises : Datum → Value → Prop where
  | json {value : Value} : Serialises (.json value) value
  | absent : Serialises .absent .null
  | bool {flag : Bool} : Serialises (.bool flag) (.bool flag)
  | int {number : Int} : IntegerInRange number → Serialises (.int number) (.int number)
  | finite {x : Double} : x.Finite → Serialises (.double x) (.double x)
  | notFinite {x : Double} : ¬x.Finite → Serialises (.double x) .null
  | text {text : String} : Serialises (.text text) (.string text)
  | wrapped {inner : Datum} {value : Value} : Serialises inner value → Serialises (.wrapped inner) value
  | tagged {tag : String} {inner : Datum} {value : Value} : Serialises inner value →
      Serialises (.tagged tag inner) (.object [(tag, value)])
  | list {items : List Datum} {values : List Value} : SerialisesItems items values →
      Serialises (.list items) (.array values)
  | map {entries : List (Key × Datum)} {written members : List (String × Value)} :
      SerialisesEntries entries written → Collected written members →
      Serialises (.map entries) (.object members)

/-- The items serialise to the values, one by one. -/
inductive SerialisesItems : List Datum → List Value → Prop where
  | nil : SerialisesItems [] []
  | cons {item : Datum} {items : List Datum} {value : Value} {values : List Value} : Serialises item value →
      SerialisesItems items values → SerialisesItems (item :: items) (value :: values)

/-- The entries serialise to the members, one by one. -/
inductive SerialisesEntries : List (Key × Datum) → List (String × Value) → Prop where
  | nil : SerialisesEntries [] []
  | cons {key : Key} {datum : Datum} {entries : List (Key × Datum)} {name : String} {value : Value}
      {written : List (String × Value)} : key.encode = .ok name → Serialises datum value →
      SerialisesEntries entries written → SerialisesEntries ((key, datum) :: entries) ((name, value) :: written)
end

mutual
/-- The datum does not serialise, and the error is the first that is met. -/
inductive Fails : Datum → EncodeError → Prop where
  | int {number : Int} : ¬IntegerInRange number → Fails (.int number) .numberOutOfRange
  | refusing {reason : String} : Fails (.refusing reason) (.refused reason)
  | wrapped {inner : Datum} {error : EncodeError} : Fails inner error → Fails (.wrapped inner) error
  | tagged {tag : String} {inner : Datum} {error : EncodeError} : Fails inner error →
      Fails (.tagged tag inner) error
  | list {items : List Datum} {error : EncodeError} : FailsItems items error → Fails (.list items) error
  | map {entries : List (Key × Datum)} {error : EncodeError} : FailsEntries entries error →
      Fails (.map entries) error

/-- One of the items does not serialise, and those before it do. -/
inductive FailsItems : List Datum → EncodeError → Prop where
  | here {item : Datum} {items : List Datum} {error : EncodeError} : Fails item error →
      FailsItems (item :: items) error
  | later {item : Datum} {items : List Datum} {value : Value} {error : EncodeError} : Serialises item value →
      FailsItems items error → FailsItems (item :: items) error

/-- One of the entries does not serialise, and those before it do. -/
inductive FailsEntries : List (Key × Datum) → EncodeError → Prop where
  | key {key : Key} {datum : Datum} {entries : List (Key × Datum)} {error : EncodeError} :
      key.encode = .error error → FailsEntries ((key, datum) :: entries) error
  | value {key : Key} {datum : Datum} {entries : List (Key × Datum)} {name : String} {error : EncodeError} :
      key.encode = .ok name → Fails datum error → FailsEntries ((key, datum) :: entries) error
  | later {key : Key} {datum : Datum} {entries : List (Key × Datum)} {name : String} {value : Value}
      {error : EncodeError} : key.encode = .ok name → Serialises datum value → FailsEntries entries error →
      FailsEntries ((key, datum) :: entries) error
end

/-! ### What serialises is encoded -/

mutual
theorem Serialises.encode_eq {datum : Datum} {value : Value} (h : datum.Serialises value) :
    datum.encode = .ok value := by
  cases h with
  | json | absent | bool | text => rfl
  | int hrange => exact if_pos hrange
  | finite hfinite =>
    rw [encode, if_pos hfinite]
  | notFinite hinfinite => rw [encode, if_neg hinfinite]
  | wrapped hinner => exact hinner.encode_eq
  | tagged hinner => rw [encode, hinner.encode_eq]; rfl
  | list hitems => rw [encode, hitems.encodeItems_eq]; rfl
  | map hentries hcollected =>
    rw [encode, hentries.encodeEntries_eq [], hcollected.collect_eq]
    rfl

theorem SerialisesItems.encodeItems_eq {items : List Datum} {values : List Value}
    (h : SerialisesItems items values) : encodeItems items = .ok values := by
  cases h with
  | nil => rfl
  | cons hitem hitems => rw [encodeItems, hitem.encode_eq, ok_bind, hitems.encodeItems_eq]; rfl

theorem SerialisesEntries.encodeEntries_eq {entries : List (Key × Datum)} {written : List (String × Value)}
    (h : SerialisesEntries entries written) (members : List (String × Value)) :
    encodeEntries entries members = .ok (collect members written) := by
  cases h with
  | nil => rfl
  | cons hkey hvalue hentries =>
    rw [encodeEntries, hkey, ok_bind, hvalue.encode_eq, ok_bind, hentries.encodeEntries_eq]
    rfl
end

mutual
theorem Fails.encode_eq {datum : Datum} {error : EncodeError} (h : datum.Fails error) :
    datum.encode = .error error := by
  match h with
  | .int hrange => exact if_neg hrange
  | .refusing => rfl
  | .wrapped hinner => exact hinner.encode_eq
  | .tagged hinner => rw [encode, hinner.encode_eq]; rfl
  | .list hitems => rw [encode, hitems.encodeItems_eq]; rfl
  | .map hentries => rw [encode, hentries.encodeEntries_eq []]; rfl

theorem FailsItems.encodeItems_eq {items : List Datum} {error : EncodeError} (h : FailsItems items error) :
    encodeItems items = .error error := by
  match h with
  | .here hitem => rw [encodeItems, hitem.encode_eq]; rfl
  | .later hitem hitems => rw [encodeItems, hitem.encode_eq, ok_bind, hitems.encodeItems_eq]; rfl

theorem FailsEntries.encodeEntries_eq {entries : List (Key × Datum)} {error : EncodeError}
    (h : FailsEntries entries error) (members : List (String × Value)) :
    encodeEntries entries members = .error error := by
  match h with
  | .key hkey => rw [encodeEntries, hkey]; rfl
  | .value hkey hvalue => rw [encodeEntries, hkey, ok_bind, hvalue.encode_eq]; rfl
  | .later hkey hvalue hentries =>
    rw [encodeEntries, hkey, ok_bind, hvalue.encode_eq, ok_bind, hentries.encodeEntries_eq]
end

/-! ### Every datum serialises or fails -/

mutual
theorem serialises_or_fails (datum : Datum) :
    (∃ value, datum.Serialises value) ∨ ∃ error, datum.Fails error := by
  match datum with
  | .json value => exact .inl ⟨value, .json⟩
  | .absent => exact .inl ⟨_, .absent⟩
  | .bool flag => exact .inl ⟨_, .bool⟩
  | .int number =>
    by_cases hrange : IntegerInRange number
    · exact .inl ⟨_, .int hrange⟩
    · exact .inr ⟨_, .int hrange⟩
  | .double x =>
    by_cases hfinite : x.Finite
    · exact .inl ⟨_, .finite hfinite⟩
    · exact .inl ⟨_, .notFinite hfinite⟩
  | .text _ => exact .inl ⟨_, .text⟩
  | .wrapped inner =>
    rcases serialises_or_fails inner with ⟨value, h⟩ | ⟨error, h⟩
    · exact .inl ⟨value, .wrapped h⟩
    · exact .inr ⟨error, .wrapped h⟩
  | .tagged tag inner =>
    rcases serialises_or_fails inner with ⟨value, h⟩ | ⟨error, h⟩
    · exact .inl ⟨_, .tagged h⟩
    · exact .inr ⟨error, .tagged h⟩
  | .list items =>
    rcases serialisesItems_or_fails items with ⟨values, h⟩ | ⟨error, h⟩
    · exact .inl ⟨_, .list h⟩
    · exact .inr ⟨error, .list h⟩
  | .map entries =>
    rcases serialisesEntries_or_fails entries with ⟨written, h⟩ | ⟨error, h⟩
    · exact .inl ⟨_, .map h (collected_collect written)⟩
    · exact .inr ⟨error, .map h⟩
  | .refusing reason => exact .inr ⟨_, .refusing⟩

theorem serialisesItems_or_fails (items : List Datum) :
    (∃ values, SerialisesItems items values) ∨ ∃ error, FailsItems items error := by
  match items with
  | [] => exact .inl ⟨[], .nil⟩
  | item :: items =>
    rcases serialises_or_fails item with ⟨value, h⟩ | ⟨error, h⟩
    · rcases serialisesItems_or_fails items with ⟨values, hrest⟩ | ⟨error, hrest⟩
      · exact .inl ⟨_, .cons h hrest⟩
      · exact .inr ⟨error, .later h hrest⟩
    · exact .inr ⟨error, .here h⟩

theorem serialisesEntries_or_fails (entries : List (Key × Datum)) :
    (∃ written, SerialisesEntries entries written) ∨ ∃ error, FailsEntries entries error := by
  match entries with
  | [] => exact .inl ⟨[], .nil⟩
  | (key, datum) :: entries =>
    cases hkey : key.encode with
    | error error => exact .inr ⟨error, .key hkey⟩
    | ok name =>
      rcases serialises_or_fails datum with ⟨value, h⟩ | ⟨error, h⟩
      · rcases serialisesEntries_or_fails entries with ⟨written, hrest⟩ | ⟨error, hrest⟩
        · exact .inl ⟨_, .cons hkey h hrest⟩
        · exact .inr ⟨error, .later hkey h hrest⟩
      · exact .inr ⟨error, .value hkey h⟩
end

section
variable {datum : Datum} {value : Value} {error : EncodeError}

theorem encode_eq_ok_iff : datum.encode = .ok value ↔ datum.Serialises value := by
  refine ⟨fun h => ?_, Serialises.encode_eq⟩
  rcases serialises_or_fails datum with ⟨other, hother⟩ | ⟨error, herror⟩
  · rw [hother.encode_eq] at h
    cases h
    exact hother
  · rw [herror.encode_eq] at h
    cases h

theorem encode_eq_error_iff : datum.encode = .error error ↔ datum.Fails error := by
  refine ⟨fun h => ?_, Fails.encode_eq⟩
  rcases serialises_or_fails datum with ⟨value, hvalue⟩ | ⟨other, hother⟩
  · rw [hvalue.encode_eq] at h
    cases h
  · rw [hother.encode_eq] at h
    cases h
    exact hother

theorem Serialises.unique {other : Value} (h : datum.Serialises value) (h' : datum.Serialises other) :
    value = other :=
  Except.ok.inj (h.encode_eq.symm.trans h'.encode_eq)

theorem Serialises.not_fails (h : datum.Serialises value) : ¬datum.Fails error := fun hfails => by
  rw [← encode_eq_error_iff, h.encode_eq] at hfails
  cases hfails

end

end RecordGate.Datum
