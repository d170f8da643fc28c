import RecordGate.Program
import RecordGate.Proofs.Settings.Layer
import RecordGate.Proofs.Text.Encoding

/-! # Merging the settings

A run is planned with merged settings: what the options say, or else what the file says, or else the default. The
options are a layer (`Layer.ofOptions`) that is put over the layer of the file (`Layer.over`); the file cannot say
anything where it cannot be used (`Unusable`). Merged settings are `Accepted`, or `Rejected` for the first thing
they lack. The checks see nothing but the merged settings, so what a file says under an option does not matter
(`Layer.AgreeUnder`). The main statement is `plan_merged`. -/

namespace RecordGate.Settings
open CommandLine (Options)

/-- A layer put over another: what it says, or else what the other one says. -/
def Layer.over (upper lower : Layer) : Layer where
  path := upper.path <|> lower.path
  name := upper.name <|> lower.name
  current := upper.current <|> lower.current
  previous := upper.previous <|> lower.previous
  fuel := upper.fuel <|> lower.fuel
  memoryBytes := upper.memoryBytes <|> lower.memoryBytes
  verbosity := upper.verbosity <|> lower.verbosity

/-- What options say. A verbosity of zero says nothing, and there is no option for the name and for the memory. -/
def Layer.ofOptions (options : Options) : Layer where
  path := options.module
  current := options.current
  previous := options.previous
  fuel := options.fuel
  verbosity := if 0 < options.verbosity then some options.verbosity else none

/-- What the file that options name says. Without a file, nothing is said. -/
inductive FileLayer (files : Files) (options : Options) : Layer → Prop where
  | nothing : options.config = none → FileLayer files options {}
  | document {path text : String} {document : List (String × Toml.Value)} {base : Settings} :
      options.config = some path → files.text path = .ok text → Toml.parse text = some document →
      readEntries sections {} document = .ok base → FileLayer files options (.ofDocument document)

/-- Why a file cannot be used: it cannot be read, or its text is no TOML, or a value in that text does not fit. -/
inductive Unusable (files : Files) (path : String) : SettingsError → Prop where
  | unreadable {reason : FileError} : files.text path = .error reason →
      Unusable files path (.unreadable path reason)
  | notToml {text : String} : files.text path = .ok text → Toml.parse text = none →
      Unusable files path (.notToml text)
  | mismatch {text : String} {document : List (String × Toml.Value)} {what : Mismatch} :
      files.text path = .ok text → Toml.parse text = some document →
      readEntries sections {} document = .error what → Unusable files path (.mismatch text what)

/-- Merged settings have all that a run needs, and are planned as they are. -/
inductive Accepted (merged : Settings) : Plan → Prop where
  | intro {module current : String} : merged.validator.path = some module →
      merged.records.current = some current → 1 ≤ merged.runtime.fuel → 65536 ≤ merged.runtime.memoryBytes →
      Accepted merged ⟨merged, module, current⟩

/-- The first of the things that a run needs and merged settings lack. -/
inductive Rejected (merged : Settings) : SettingsError → Prop where
  | noModule : merged.validator.path = none → Rejected merged .noModule
  | noRecord {module : String} : merged.validator.path = some module → merged.records.current = none →
      Rejected merged .noRecord
  | noFuel {module current : String} : merged.validator.path = some module →
      merged.records.current = some current → merged.runtime.fuel = 0 → Rejected merged .noFuel
  | noMemory {module current : String} : merged.validator.path = some module →
      merged.records.current = some current → 1 ≤ merged.runtime.fuel → merged.runtime.memoryBytes < 65536 →
      Rejected merged .noMemory

/-- Two layers say the same wherever the layer over them says nothing. -/
structure Layer.AgreeUnder (upper lower lower' : Layer) : Prop where
  path : upper.path = none → lower'.path = lower.path
  name : upper.name = none → lower'.name = lower.name
  current : upper.current = none → lower'.current = lower.current
  previous : upper.previous = none → lower'.previous = lower.previous
  fuel : upper.fuel = none → lower'.fuel = lower.fuel
  memoryBytes : upper.memoryBytes = none → lower'.memoryBytes = lower.memoryBytes
  verbosity : upper.verbosity = none → lower'.verbosity = lower.verbosity

/-! ### Layers -/

theorem orElse_congr {α : Type} {upper lower lower' : Option α} (h : upper = none → lower' = lower) :
    (upper <|> lower') = (upper <|> lower) := by
  cases upper with
  | none => rw [h rfl]
  | some a => rfl

/-- What is said under a layer that says the same matters only where that layer says nothing. -/
theorem Layer.AgreeUnder.over_eq {upper lower lower' : Layer} (h : upper.AgreeUnder lower lower') :
    upper.over lower' = upper.over lower := by
  unfold Layer.over
  rw [orElse_congr h.path, orElse_congr h.name, orElse_congr h.current, orElse_congr h.previous,
    orElse_congr h.fuel, orElse_congr h.memoryBytes, orElse_congr h.verbosity]

theorem getD_orElse {α : Type} (upper lower : Option α) (value : α) :
    (upper <|> lower).getD value = upper.getD (lower.getD value) := by
  cases upper <;> rfl

theorem getD_if {α : Type} (p : Prop) [Decidable p] (a value : α) :
    (if p then some a else none).getD value = if p then a else value := by
  split <;> rfl

/-- Options that are put over settings are a layer over theirs. -/
theorem override_settings (options : Options) (file : Layer) :
    options.override file.settings = ((Layer.ofOptions options).over file).settings := by
  unfold Options.override Layer.settings Layer.over Layer.ofOptions
  simp only [getD_orElse, getD_if]
  rfl

/-! ### Checks -/

theorem plan_eq_ok_iff (merged : Settings) {plan : Plan} : merged.plan = .ok plan ↔ Accepted merged plan := by
  constructor
  · intro h
    unfold Settings.plan at h
    split at h
    · cases h
    · cases h
    · next module current hmodule hcurrent =>
      split at h
      · cases h
      · next hfuel =>
        split at h
        · cases h
        · next hmemory =>
          cases h
          exact .intro hmodule hcurrent (Nat.pos_of_ne_zero hfuel) (Nat.le_of_not_lt hmemory)
  · rintro ⟨hmodule, hcurrent, hfuel, hmemory⟩
    unfold Settings.plan
    rw [hmodule, hcurrent]
    exact (if_neg (Nat.ne_of_gt hfuel)).trans (if_neg (Nat.not_lt_of_le hmemory))

theorem plan_eq_error_iff (merged : Settings) {error : SettingsError} :
    merged.plan = .error error ↔ Rejected merged error := by
  constructor
  · intro h
    unfold Settings.plan at h
    split at h
    · next hmodule =>
      cases h
      exact .noModule hmodule
    · next hmodule hcurrent =>
      cases h
      exact .noRecord hmodule hcurrent
    · next hmodule hcurrent =>
      split at h
      · next hfuel =>
        cases h
        exact .noFuel hmodule hcurrent hfuel
      · next hfuel =>
        split at h
        · next hmemory =>
          cases h
          exact .noMemory hmodule hcurrent (Nat.pos_of_ne_zero hfuel) hmemory
        · cases h
  · rintro (hmodule | ⟨hmodule, hcurrent⟩ | ⟨hmodule, hcurrent, hfuel⟩ | ⟨hmodule, hcurrent, hfuel, hmemory⟩)
    all_goals unfold Settings.plan
    · rw [hmodule]
    · rw [hmodule, hcurrent]
    · rw [hmodule, hcurrent]
      exact if_pos hfuel
    · rw [hmodule, hcurrent]
      exact (if_neg (Nat.ne_of_gt hfuel)).trans (if_pos hmemory)

/-! ### Files -/

variable {files : Files} {options : Options}

theorem ofFile_of_text {path text : String} (htext : files.text path = .ok text) :
    ofFile files path = parse text := by
  unfold ofFile
  rw [htext]

theorem parse_of_document {text : String} {document : List (String × Toml.Value)}
    (hparse : Toml.parse text = some document) :
    parse text = (readEntries sections {} document).mapError (.mismatch text) := by
  unfold parse
  rw [hparse]

theorem document_of_parse {text : String} {base : Settings} (h : parse text = .ok base) :
    ∃ document, Toml.parse text = some document ∧ readEntries sections {} document = .ok base := by
  unfold parse at h
  split at h
  · cases h
  · next document hparse => exact ⟨document, hparse, mapError_eq_ok.mp h⟩

theorem Unusable.ofFile_eq {path : String} {error : SettingsError} (h : Unusable files path error) :
    ofFile files path = .error error := by
  cases h with
  | unreadable htext =>
    unfold ofFile
    rw [htext]
  | notToml htext hparse =>
    rw [ofFile_of_text htext]
    unfold parse
    rw [hparse]
  | mismatch htext hparse hread => rw [ofFile_of_text htext, parse_of_document hparse, hread, mapError_error]

/-- A file says something, or it cannot be used. -/
theorem fileLayer_or_unusable (files : Files) (options : Options) :
    (∃ file, FileLayer files options file) ∨ ∃ path error, options.config = some path ∧ Unusable files path error := by
  cases hconfig : options.config with
  | none => exact .inl ⟨_, .nothing hconfig⟩
  | some path =>
    cases htext : files.text path with
    | error reason => exact .inr ⟨path, _, rfl, .unreadable htext⟩
    | ok text =>
      cases hparse : Toml.parse text with
      | none => exact .inr ⟨path, _, rfl, .notToml htext hparse⟩
      | some document =>
        cases hread : readEntries sections {} document with
        | error what => exact .inr ⟨path, _, rfl, .mismatch htext hparse hread⟩
        | ok base => exact .inl ⟨_, .document hconfig htext hparse hread⟩

/-- What the file says, under the options, makes the settings of the program. -/
theorem FileLayer.settings_eq {file : Layer} (h : FileLayer files options file) :
    Program.settings files options = .ok ((Layer.ofOptions options).over file).settings := by
  unfold Program.settings
  cases h with
  | nothing hconfig =>
    rw [hconfig]
    exact congrArg Except.ok (override_settings options {})
  | @document path text document base hconfig htext hparse hread =>
    have hfile : ofFile files path = .ok (Layer.ofDocument document).settings := by
      rw [ofFile_of_text htext, parse_of_document hparse, hread, mapError_ok, settings_ofDocument hread]
    rw [hconfig]
    dsimp only
    rw [hfile]
    exact congrArg Except.ok (override_settings options _)

end RecordGate.Settings

namespace RecordGate.Program
open CommandLine Settings

variable {files : Files} {options : Options}

theorem plan_eq_of_fileLayer {file : Layer} (h : FileLayer files options file) :
    plan files options = ((Layer.ofOptions options).over file).settings.plan := by
  unfold plan
  rw [h.settings_eq, ok_bind]

/-- The file that the options name says something, or it cannot be used. Where it says something, or there is no
    file, exactly the merged settings are planned if they are accepted, and the error is the first thing they lack
    if they are not; what the file says under an option makes no difference, nor does which file says it. A file
    that cannot be used is the error, whatever the other options are. -/
theorem plan_merged (files : Files) (options : Options) :
    ((∃ file, FileLayer files options file) ∨
      ∃ path error, options.config = some path ∧ Unusable files path error) ∧
    (∀ file, FileLayer files options file →
      (∀ accepted, plan files options = .ok accepted ↔
        Accepted ((Layer.ofOptions options).over file).settings accepted) ∧
      (∀ error, plan files options = .error error ↔
        Rejected ((Layer.ofOptions options).over file).settings error) ∧
      ∀ files' config' file', FileLayer files' { options with config := config' } file' →
        (Layer.ofOptions options).AgreeUnder file file' →
        plan files' { options with config := config' } = plan files options) ∧
    ∀ path error, options.config = some path → Unusable files path error → plan files options = .error error := by
  refine ⟨fileLayer_or_unusable files options, fun file hfile => ⟨?_, ?_, ?_⟩, ?_⟩
  · intro accepted
    rw [plan_eq_of_fileLayer hfile]
    exact plan_eq_ok_iff _
  · intro error
    rw [plan_eq_of_fileLayer hfile]
    exact plan_eq_error_iff _
  · intro files' config' file' hfile' hagree
    rw [plan_eq_of_fileLayer hfile, plan_eq_of_fileLayer hfile', ← hagree.over_eq]
    rfl
  · intro path error hconfig hunusable
    unfold plan Program.settings
    rw [hconfig]
    dsimp only
    rw [hunusable.ofFile_eq]
    rfl

/-- A file of settings that has no fuel. -/
def emptyTank : Files := fun path =>
  if path = "t" then .ok (Text.bytes "[runtime]\nfuel = 0\n") else .error .notFound

/-- The file lacks a fuel, which an option gives; without that option the fuel is missed. A file that is not there
    is missed whatever the options are. -/
theorem plan_merged_empty_tank :
    plan emptyTank { config := some "t", module := some "m", current := some "r", fuel := some 5 } =
        .ok ⟨⟨⟨some "m", none⟩, ⟨some "r", none⟩, ⟨5, 67108864, 0⟩⟩, "m", "r"⟩ ∧
      plan emptyTank { config := some "t", module := some "m", current := some "r" } = .error .noFuel ∧
      plan emptyTank { config := some "s", module := some "m", current := some "r", fuel := some 5 } =
        .error (.unreadable "s" .notFound) := by
  have htext : emptyTank.text "t" = .ok "[runtime]\nfuel = 0\n" := by
    unfold Files.text
    rw [show emptyTank "t" = .ok (Text.bytes "[runtime]\nfuel = 0\n") from rfl, ok_bind, Text.decode?_bytes]
    rfl
  have hparsed : parse "[runtime]\nfuel = 0\n" = .ok { runtime := { fuel := 0 } } :=
    eq_ok_of_toOption (by decide +kernel)
  obtain ⟨document, hparse, hread⟩ := document_of_parse hparsed
  refine ⟨(((plan_merged _ _).2.1 _ (.document rfl htext hparse hread)).1 _).mpr ?_,
    (((plan_merged _ _).2.1 _ (.document rfl htext hparse hread)).2.1 _).mpr ?_,
    (plan_merged _ _).2.2 "s" _ rfl (.unreadable rfl)⟩
  · rw [← override_settings, ← settings_ofDocument hread]
    exact .intro rfl rfl (by decide) (by decide)
  · rw [← override_settings, ← settings_ofDocument hread]
    exact .noFuel rfl rfl rfl

end RecordGate.Program
