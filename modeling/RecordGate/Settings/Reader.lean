import RecordGate.Settings.Basic
import RecordGate.Toml.Reader

/-! # Reading settings

Settings are read from a TOML document with three sections. A section is a table, in which unknown keys are
ignored, or an array of its values in order, in which further values are ignored; what is missing stays as
it is by default. Values are read in the order in which the document gives them, and the first one that
does not fit is an error. -/

namespace RecordGate.Settings
open Toml (Value)

/-- One setting: its key, and how its value changes the section. -/
structure Setting (σ : Type) where
  key : String
  read : Value → σ → Except Mismatch σ

/-- Reads a text. -/
def readText (expected : String) : Value → Except Mismatch String
  | .string text => .ok text
  | value => .error (.type value.found expected)

/-- Reads a number from zero up to a limit. -/
def readNumber (limit : Nat) (expected : String) : Value → Except Mismatch Nat
  | .int i =>
    if 0 ≤ i ∧ i < limit then .ok i.toNat else .error (.range (.int i) expected)
  | value => .error (.type value.found expected)

/-- Reads the entries of a section. -/
def readEntries {σ : Type} (settings : List (Setting σ)) (start : σ) (entries : List (String × Value)) :
    Except Mismatch σ :=
  entries.foldlM (fun read (key, value) =>
    match settings.find? (·.key = key) with
    | some setting => setting.read value read
    | none => .ok read) start

/-- Reads a section. No setting is a part of a moment. -/
def readSection {σ : Type} (name : String) (settings : List (Setting σ)) (start : σ) :
    Value → Except Mismatch σ
  | .table entries => readEntries settings start entries
  | .array items => (settings.zip items).foldlM (fun read (setting, value) => setting.read value read) start
  | .moment _ => .ok start
  | value => .error (.type value.found ("struct " ++ name))

/-- The settings about the module. -/
def validatorSettings : List (Setting Validator) :=
  [⟨"path", fun value validator => do
      let path ← readText "path string" value
      return { validator with path := some path }⟩,
   ⟨"name", fun value validator => do
      let name ← readText "a string" value
      return { validator with name := some name }⟩]

/-- The settings about the records. -/
def recordSettings : List (Setting Records) :=
  [⟨"current", fun value records => do
      let path ← readText "path string" value
      return { records with current := some path }⟩,
   ⟨"previous", fun value records => do
      let path ← readText "path string" value
      return { records with previous := some path }⟩]

/-- The settings about the run. -/
def runtimeSettings : List (Setting Runtime) :=
  [⟨"fuel", fun value runtime => do
      let fuel ← readNumber UInt64.size "u64" value
      return { runtime with fuel }⟩,
   ⟨"max_memory_bytes", fun value runtime => do
      let memoryBytes ← readNumber UInt64.size "usize" value
      return { runtime with memoryBytes }⟩,
   ⟨"verbose", fun value runtime => do
      let verbosity ← readNumber UInt8.size "u8" value
      return { runtime with verbosity }⟩]

/-- The sections. -/
def sections : List (Setting Settings) :=
  [⟨"validator", fun value settings => do
      let validator ← readSection "ValidatorSettings" validatorSettings {} value
      return { settings with validator }⟩,
   ⟨"records", fun value settings => do
      let records ← readSection "RecordSettings" recordSettings {} value
      return { settings with records }⟩,
   ⟨"runtime", fun value settings => do
      let runtime ← readSection "RuntimeSettings" runtimeSettings {} value
      return { settings with runtime }⟩]

/-- The settings of a TOML document. -/
def parse (text : String) : Except SettingsError Settings :=
  match Toml.parse text with
  | none => .error (.notToml text)
  | some entries => (readEntries sections {} entries).mapError (.mismatch text)

/-- The settings of a file. -/
def ofFile (files : Files) (path : String) : Except SettingsError Settings :=
  match files.text path with
  | .error reason => .error (.unreadable path reason)
  | .ok text => parse text

end RecordGate.Settings
