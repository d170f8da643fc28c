import RecordGate.Proofs.Except
import RecordGate.Settings.Reader

/-! # What a document says about settings

Settings come in layers, each of which says something about some settings and nothing about the others. What a
TOML document says (`Layer.ofDocument`) is looked up in its sections. A document that is accepted gives the
settings of its layer, with the defaults where it says nothing (`settings_ofDocument`). Reading an entry sets
what its key stands for and keeps everything else (`Setting.Follows`), so of several entries of one key the last
counts. -/

namespace RecordGate.Settings
open Toml (Value)

/-- What one source says about each setting, if it says anything. -/
structure Layer where
  path : Option String := none
  name : Option String := none
  current : Option String := none
  previous : Option String := none
  fuel : Option Nat := none
  memoryBytes : Option Nat := none
  verbosity : Option Nat := none

/-- The settings of a layer, by default where the layer says nothing. -/
def Layer.settings (layer : Layer) : Settings where
  validator := ⟨layer.path, layer.name⟩
  records := ⟨layer.current, layer.previous⟩
  runtime := ⟨layer.fuel.getD 100000000, layer.memoryBytes.getD (64 * 1024 * 1024), layer.verbosity.getD 0⟩

/-! ### Looking up -/

/-- The value of a key, the last if there are several. -/
def lastOf (key : String) (entries : List (String × Value)) : Option Value :=
  entries.reverse.lookup key

/-- The entries of a section with the given keys: those of a table, or the items of an array by position. -/
def sectionEntries (keys : List String) : Value → List (String × Value)
  | .table entries => entries
  | .array items => keys.zip items
  | _ => []

/-- The entries that a document has for a section with the given keys, none if it has no such section. -/
def entriesOf (sect : String) (keys : List String) (document : List (String × Value)) : List (String × Value) :=
  ((lastOf sect document).map (sectionEntries keys)).getD []

/-- What a document says about a key in a section with the given keys. -/
def stated (sect : String) (keys : List String) (key : String) (document : List (String × Value)) : Option Value :=
  lastOf key (entriesOf sect keys document)

/-- The text that a value is. -/
def text? : Value → Option String
  | .string text => some text
  | _ => none

/-- The number from zero on that a value is. -/
def natural? : Value → Option Nat
  | .int i => if 0 ≤ i then some i.toNat else none
  | _ => none

/-- What a document says. -/
def Layer.ofDocument (document : List (String × Value)) : Layer where
  path := (stated "validator" ["path", "name"] "path" document).bind text?
  name := (stated "validator" ["path", "name"] "name" document).bind text?
  current := (stated "records" ["current", "previous"] "current" document).bind text?
  previous := (stated "records" ["current", "previous"] "previous" document).bind text?
  fuel := (stated "runtime" ["fuel", "max_memory_bytes", "verbose"] "fuel" document).bind natural?
  memoryBytes :=
    (stated "runtime" ["fuel", "max_memory_bytes", "verbose"] "max_memory_bytes" document).bind natural?
  verbosity := (stated "runtime" ["fuel", "max_memory_bytes", "verbose"] "verbose" document).bind natural?

/-! ### Reading entries -/

section
variable {σ α β : Type} {key : String} {observe : σ → α} {means : Value → Option α}

/-- Reading the setting of the key makes what is observed what the value says, and any other setting keeps it. -/
structure Setting.Follows (setting : Setting σ) (key : String) (observe : σ → α) (means : Value → Option α) :
    Prop where
  same : setting.key = key → ∀ {value s t}, setting.read value s = .ok t → means value = some (observe t)
  other : setting.key ≠ key → ∀ {value s t}, setting.read value s = .ok t → observe t = observe s

/-- What is observed after a value was looked up: what it says, or what was there before if there is none. -/
inductive Observed (means : Value → Option α) (before : α) : Option Value → α → Prop where
  | kept : Observed means before none before
  | said {value : Value} {after : α} : means value = some after → Observed means before (some value) after

theorem Observed.eq_getD {before after : α} {value : Option Value} (h : Observed means before value after) :
    after = (value.bind means).getD before := by
  cases h with
  | kept => rfl
  | said hmeans => rw [Option.bind_some, hmeans, Option.getD_some]

/-- What may be missing is there if it is said. -/
theorem Observed.eq_bind {means : Value → Option α} {after : Option α} {value : Option Value}
    (h : Observed (fun value => (means value).map some) none value after) : after = value.bind means := by
  cases h with
  | kept => rfl
  | said hmeans =>
    obtain ⟨a, ha, rfl⟩ := Option.map_eq_some_iff.mp hmeans
    exact ha.symm

theorem lastOf_cons (key other : String) (value : Value) (entries : List (String × Value)) :
    lastOf key ((other, value) :: entries) =
      (lastOf key entries).or (if key = other then some value else none) := by
  unfold lastOf
  rw [List.reverse_cons, List.lookup_append]
  split
  · next h => rw [h, List.lookup_cons_self]
  · next h => rw [List.lookup_cons, beq_false_of_ne h]; rfl

theorem follows_self {read : Value → Except Mismatch β} {update : β → σ → σ}
    (h : ∀ {value b}, read value = .ok b → ∀ s, means value = some (observe (update b s))) :
    Setting.Follows ⟨key, fun value s => do return update (← read value) s⟩ key observe means where
  same _ value s t hread := by
    obtain ⟨b, hb, ht⟩ := bind_eq_ok.mp hread
    cases ht
    exact h hb s
  other hkey := absurd rfl hkey

theorem follows_other {other : String} (hother : other ≠ key) {read : Value → Except Mismatch β}
    {update : β → σ → σ} (h : ∀ b s, observe (update b s) = observe s) :
    Setting.Follows ⟨other, fun value s => do return update (← read value) s⟩ key observe means where
  same hkey := absurd hkey hother
  other _ value s t hread := by
    obtain ⟨b, -, ht⟩ := bind_eq_ok.mp hread
    cases ht
    exact h b s

/-- Reads one entry; an unknown key is ignored. -/
def readEntry (settings : List (Setting σ)) (start : σ) (other : String) (value : Value) : Except Mismatch σ :=
  match settings.find? (·.key = other) with
  | some setting => setting.read value start
  | none => .ok start

theorem readEntries_cons (settings : List (Setting σ)) (start : σ) (other : String) (value : Value)
    (entries : List (String × Value)) :
    readEntries settings start ((other, value) :: entries) =
      readEntry settings start other value >>= fun middle => readEntries settings middle entries :=
  List.foldlM_cons

/-- What is observed after entries were read is what the last entry of the key says. -/
theorem observed_of_readEntries (settings : List (Setting σ)) (key : String) (observe : σ → α)
    (means : Value → Option α) (hknown : key ∈ settings.map Setting.key)
    (hfollows : ∀ setting ∈ settings, setting.Follows key observe means) {entries : List (String × Value)}
    {start result : σ} (h : readEntries settings start entries = .ok result) :
    Observed means (observe start) (lastOf key entries) (observe result) := by
  induction entries generalizing start with
  | nil =>
    cases h
    exact .kept
  | cons entry entries ih =>
    obtain ⟨other, value⟩ := entry
    rw [readEntries_cons] at h
    obtain ⟨middle, hentry, hrest⟩ := bind_eq_ok.mp h
    have hobserved := ih hrest
    rw [lastOf_cons]
    generalize lastOf key entries = last at hobserved
    generalize observe result = after at hobserved
    cases hobserved with
    | said hmeans => exact .said hmeans
    | kept =>
      rw [Option.none_or]
      unfold readEntry at hentry
      split at hentry
      · next setting hfind =>
        have hsetting := hfollows setting (List.mem_of_find?_eq_some hfind)
        have hfound := List.find?_some hfind
        have hother : setting.key = other := of_decide_eq_true hfound
        split
        · next hkey => exact .said (hsetting.same (hother.trans hkey.symm) hentry)
        · next hkey =>
          rw [hsetting.other (fun hsame => hkey (hsame.symm.trans hother)) hentry]
          exact .kept
      · next hnone =>
        cases hentry
        have hkey : key ≠ other := by
          rintro rfl
          obtain ⟨setting, hmem, hsame⟩ := List.mem_map.mp hknown
          exact List.find?_eq_none.mp hnone setting hmem (decide_eq_true hsame)
        rw [if_neg hkey]
        exact .kept

/-! ### Reading sections -/

/-- The items of an array are read like entries under the keys of the settings. -/
theorem foldlM_zip_eq {settings part : List (Setting σ)}
    (hfind : ∀ setting ∈ part, settings.find? (·.key = setting.key) = some setting) (items : List Value)
    (start : σ) :
    (part.zip items).foldlM (fun read (setting, value) => setting.read value read) start =
      readEntries settings start ((part.map Setting.key).zip items) := by
  induction part generalizing items start with
  | nil => rfl
  | cons setting part ih =>
    obtain ⟨hsetting, hpart⟩ := List.forall_mem_cons.mp hfind
    cases items with
    | nil => rfl
    | cons value items =>
      rw [List.map_cons, List.zip_cons_cons, List.zip_cons_cons, List.foldlM_cons, readEntries_cons, readEntry,
        hsetting]
      exact bind_congr fun middle => ih hpart items middle

/-- A section is read by its entries. -/
theorem readSection_eq_ok (name : String) {settings : List (Setting σ)}
    (hfind : ∀ setting ∈ settings, settings.find? (·.key = setting.key) = some setting) {start result : σ}
    {value : Value} (h : readSection name settings start value = .ok result) :
    readEntries settings start (sectionEntries (settings.map Setting.key) value) = .ok result := by
  cases value with
  | table entries => exact h
  | array items => exact (foldlM_zip_eq hfind items start).symm.trans h
  | moment text => exact h
  | string | int | double | bool => cases h

end

/-! ### The settings -/

theorem text?_of_readText {expected text : String} {value : Value} (h : readText expected value = .ok text) :
    text? value = some text := by
  cases value with
  | string => exact congrArg some (Except.ok.inj h)
  | int | double | bool | moment | array | table => cases h

theorem natural?_of_readNumber {limit n : Nat} {expected : String} {value : Value}
    (h : readNumber limit expected value = .ok n) : natural? value = some n := by
  cases value with
  | int i =>
    unfold readNumber at h
    dsimp only at h
    split at h
    · next hrange =>
      cases h
      exact if_pos hrange.1
    · cases h
  | string | double | bool | moment | array | table => cases h

section
variable {σ : Type} {document : List (String × Value)} {base : Settings}

theorem means_section {name : String} {settings : List (Setting σ)} {start read : σ} {value : Value}
    (h : readSection name settings start value = .ok read) :
    (readSection name settings start value).toOption = some read := by
  rw [h]
  rfl

/-- A section is read from the entries that the document has for it. -/
theorem section_of_readEntries {sect name : String} (settings : List (Setting σ)) (get : Settings → σ)
    (hsections : ∀ setting ∈ sections, setting.Follows sect get
      fun value => (readSection name settings (get {}) value).toOption)
    (hknown : sect ∈ sections.map Setting.key)
    (hfind : ∀ setting ∈ settings, settings.find? (·.key = setting.key) = some setting)
    (h : readEntries sections {} document = .ok base) :
    readEntries settings (get {}) (entriesOf sect (settings.map Setting.key) document) = .ok (get base) := by
  have hobserved := observed_of_readEntries sections sect get _ hknown hsections h
  unfold entriesOf
  generalize lastOf sect document = last at hobserved
  generalize get base = after at hobserved
  cases hobserved with
  | kept => rfl
  | @said value after hmeans =>
    refine readSection_eq_ok name hfind ?_
    cases hread : readSection name settings (get {}) value with
    | ok read =>
      rw [hread] at hmeans
      exact congrArg Except.ok (Option.some.inj hmeans)
    | error what =>
      rw [hread] at hmeans
      cases hmeans

theorem forall_two {α : Type} {p : α → Prop} {a b : α} (ha : p a) (hb : p b) : ∀ x ∈ [a, b], p x :=
  List.forall_mem_cons.mpr ⟨ha, List.forall_mem_singleton.mpr hb⟩

theorem forall_three {α : Type} {p : α → Prop} {a b c : α} (ha : p a) (hb : p b) (hc : p c) :
    ∀ x ∈ [a, b, c], p x :=
  List.forall_mem_cons.mpr ⟨ha, forall_two hb hc⟩

theorem validator_eq (h : readEntries sections {} document = .ok base) :
    base.validator = ⟨(Layer.ofDocument document).path, (Layer.ofDocument document).name⟩ := by
  have hread := section_of_readEntries validatorSettings Settings.validator
    (forall_three (follows_self fun hread _ => means_section hread) (follows_other (by decide) fun _ _ => rfl)
      (follows_other (by decide) fun _ _ => rfl)) (by decide) (forall_two rfl rfl) h
  have hpath := observed_of_readEntries validatorSettings "path" Validator.path (fun value => (text? value).map some)
    (by decide) (forall_two (follows_self fun htext _ => congrArg (Option.map some) (text?_of_readText htext))
      (follows_other (by decide) fun _ _ => rfl)) hread
  have hname := observed_of_readEntries validatorSettings "name" Validator.name (fun value => (text? value).map some)
    (by decide) (forall_two (follows_other (by decide) fun _ _ => rfl)
      (follows_self fun htext _ => congrArg (Option.map some) (text?_of_readText htext))) hread
  exact congr (congrArg Validator.mk hpath.eq_bind) hname.eq_bind

theorem records_eq (h : readEntries sections {} document = .ok base) :
    base.records = ⟨(Layer.ofDocument document).current, (Layer.ofDocument document).previous⟩ := by
  have hread := section_of_readEntries recordSettings Settings.records
    (forall_three (follows_other (by decide) fun _ _ => rfl) (follows_self fun hread _ => means_section hread)
      (follows_other (by decide) fun _ _ => rfl)) (by decide) (forall_two rfl rfl) h
  have hcurrent := observed_of_readEntries recordSettings "current" Records.current
    (fun value => (text? value).map some) (by decide)
    (forall_two (follows_self fun htext _ => congrArg (Option.map some) (text?_of_readText htext))
      (follows_other (by decide) fun _ _ => rfl)) hread
  have hprevious := observed_of_readEntries recordSettings "previous" Records.previous
    (fun value => (text? value).map some) (by decide)
    (forall_two (follows_other (by decide) fun _ _ => rfl)
      (follows_self fun htext _ => congrArg (Option.map some) (text?_of_readText htext))) hread
  exact congr (congrArg Records.mk hcurrent.eq_bind) hprevious.eq_bind

theorem runtime_eq (h : readEntries sections {} document = .ok base) :
    base.runtime = (Layer.ofDocument document).settings.runtime := by
  have hread := section_of_readEntries runtimeSettings Settings.runtime
    (forall_three (follows_other (by decide) fun _ _ => rfl) (follows_other (by decide) fun _ _ => rfl)
      (follows_self fun hread _ => means_section hread)) (by decide) (forall_three rfl rfl rfl) h
  have hfuel := observed_of_readEntries runtimeSettings "fuel" Runtime.fuel natural? (by decide)
    (forall_three (follows_self fun hnumber _ => natural?_of_readNumber hnumber)
      (follows_other (by decide) fun _ _ => rfl) (follows_other (by decide) fun _ _ => rfl)) hread
  have hmemory := observed_of_readEntries runtimeSettings "max_memory_bytes" Runtime.memoryBytes natural? (by decide)
    (forall_three (follows_other (by decide) fun _ _ => rfl)
      (follows_self fun hnumber _ => natural?_of_readNumber hnumber)
      (follows_other (by decide) fun _ _ => rfl)) hread
  have hverbosity := observed_of_readEntries runtimeSettings "verbose" Runtime.verbosity natural? (by decide)
    (forall_three (follows_other (by decide) fun _ _ => rfl) (follows_other (by decide) fun _ _ => rfl)
      (follows_self fun hnumber _ => natural?_of_readNumber hnumber)) hread
  have hruntime := congr (congr (congrArg Runtime.mk hfuel.eq_getD) hmemory.eq_getD) hverbosity.eq_getD
  exact hruntime

/-- A document that is accepted gives the settings of its layer. -/
theorem settings_ofDocument (h : readEntries sections {} document = .ok base) :
    base = (Layer.ofDocument document).settings :=
  congr (congr (congrArg Settings.mk (validator_eq h)) (records_eq h)) (runtime_eq h)

end

end RecordGate.Settings
