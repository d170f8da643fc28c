import RecordGate.Settings.Basic

/-! # The command line

Options name files, set the fuel and raise the verbosity. An option that takes a value takes it from the same
argument, after an equals sign or at once after its letter, or from the next argument; letters may be put
together. Each option is given at most once, except the one that counts. Arguments are read in order, so
a call for help or for the version counts only if all arguments before it are fine. -/

namespace RecordGate.CommandLine

/-- What the options say. -/
structure Options where
  config : Option String := none
  module : Option String := none
  current : Option String := none
  previous : Option String := none
  fuel : Option Nat := none
  verbosity : Nat := 0
  deriving DecidableEq

/-- An option that takes a value. -/
inductive Setter where
  | config
  | module
  | current
  | previous
  | fuel
  deriving DecidableEq

/-- What ends the reading of arguments before they can be run. -/
inductive Stop where
  | help
  | version
  | misuse
  deriving DecidableEq

/-- The option of a letter. -/
def Setter.ofLetter? : Char → Option Setter
  | 'c' => some .config
  | 'w' => some .module
  | 'd' => some .current
  | 'p' => some .previous
  | _ => none

/-- The option of a name. -/
def Setter.ofName? : String → Option Setter
  | "config" => some .config
  | "webassembly" => some .module
  | "data" => some .current
  | "previous-data" => some .previous
  | "fuel" => some .fuel
  | _ => none

/-! ### Values -/

/-- The number of a text of decimal digits, with a plus in front or without, if it fits 64 bits. -/
def number? (text : String) : Option Nat :=
  let digits := match text.toList with
    | '+' :: rest => rest
    | all => all
  if digits.isEmpty ∨ !digits.all Char.isDigit then none
  else
    let number := digits.foldl (fun n c => n * 10 + (c.toNat - '0'.toNat)) 0
    if number < UInt64.size then some number else none

/-- A value for something that has none yet. -/
def once {α : Type} (before : Option α) (value : α) : Except Stop (Option α) :=
  match before with
  | none => .ok (some value)
  | some _ => .error .misuse

/-- A path for something that has none yet. -/
def path (before : Option String) (value : String) : Except Stop (Option String) :=
  if value = "" then .error .misuse else once before value

namespace Options

/-- Sets the value of an option. -/
def set (options : Options) (setter : Setter) (value : String) : Except Stop Options :=
  match setter with
  | .config => do
    let config ← path options.config value
    return { options with config }
  | .module => do
    let module ← path options.module value
    return { options with module }
  | .current => do
    let current ← path options.current value
    return { options with current }
  | .previous => do
    let previous ← path options.previous value
    return { options with previous }
  | .fuel =>
    match number? value with
    | none => .error .misuse
    | some number => do
      let fuel ← once options.fuel number
      return { options with fuel }

/-- Raises the verbosity, which has eight bits. -/
def raise (options : Options) : Options :=
  { options with verbosity := min (options.verbosity + 1) 255 }

/-! ### Arguments -/

/-- Reads letters. The last one may be an option whose value is in the next argument. -/
def readLetters (options : Options) : List Char → Except Stop (Options × Option Setter)
  | [] => .ok (options, none)
  | letter :: rest =>
    match Setter.ofLetter? letter with
    | some setter =>
      match rest with
      | [] => .ok (options, some setter)
      | '=' :: value => do return (← options.set setter (String.ofList value), none)
      | value => do return (← options.set setter (String.ofList value), none)
    | none =>
      if letter = 'v' then readLetters options.raise rest
      else if letter = 'V' then .error .version
      else if letter = 'h' then .error .help
      else .error .misuse

/-- Reads a name with the value after its equals sign, if it has one. -/
def readName (options : Options) (name : String) (value? : Option String) :
    Except Stop (Options × Option Setter) :=
  match Setter.ofName? name, value? with
  | some setter, some value => do return (← options.set setter value, none)
  | some setter, none => .ok (options, some setter)
  | none, some _ => .error .misuse
  | none, none =>
    if name = "verbose" then .ok (options.raise, none)
    else if name = "version" then .error .version
    else if name = "help" then .error .help
    else .error .misuse

/-- Reads one argument. -/
def readArgument (options : Options) (argument : String) : Except Stop (Options × Option Setter) :=
  match argument.toList with
  | '-' :: '-' :: long =>
    let name := String.ofList (long.takeWhile (· ≠ '='))
    match long.dropWhile (· ≠ '=') with
    | [] => options.readName name none
    | _ :: value => options.readName name (some (String.ofList value))
  | '-' :: letter :: letters => options.readLetters (letter :: letters)
  | _ => .error .misuse

/-- Whether an argument can be the value of the option before it: it does not look like an option. -/
def isValue (argument : String) : Bool :=
  !argument.startsWith "-" || argument = "-"

/-- Reads arguments. No argument may follow two dashes. -/
def read (options : Options) : List String → Except Stop Options
  | [] => .ok options
  | argument :: rest =>
    if argument = "--" then
      if rest.isEmpty then .ok options else .error .misuse
    else do
      match ← options.readArgument argument with
      | (options, none) => read options rest
      | (options, some setter) =>
        match rest with
        | [] => .error .misuse
        | value :: rest =>
          if isValue value then do
            let options ← options.set setter value
            read options rest
          else .error .misuse

/-! ### Settings -/

/-- The settings with what the options say put over them. A verbosity of zero says nothing. -/
def override (options : Options) (settings : Settings) : Settings where
  validator :=
    { settings.validator with path := options.module <|> settings.validator.path }
  records :=
    ⟨options.current <|> settings.records.current, options.previous <|> settings.records.previous⟩
  runtime :=
    { settings.runtime with
      fuel := options.fuel.getD settings.runtime.fuel
      verbosity := if 0 < options.verbosity then options.verbosity else settings.runtime.verbosity }

end Options

/-- What the arguments of the program say. -/
def parse (arguments : List String) : Except Stop Options :=
  Options.read {} arguments

/-! ### Texts -/

/-- The name and the version of the program. -/
def versionText : String := "reso-host 0.1.0\n"

/-- How to get help. -/
def usageText : String :=
  "Usage: reso-host [OPTIONS]\n\nFor more information, try '--help'.\n"

/-- The options of the program. -/
def helpText : String :=
  "Run a RESO validation module against JSON records\n\n" ++
  "Usage: reso-host [OPTIONS]\n\n" ++
  "Options:\n" ++
  "  -c, --config <FILE>         TOML configuration file\n" ++
  "  -w, --webassembly <FILE>    The validation module in WebAssembly format\n" ++
  "  -d, --data <FILE>           The record being saved, as JSON\n" ++
  "  -p, --previous-data <FILE>  The previously persisted record, as JSON. Omit for new records\n" ++
  "      --fuel <FUEL>           Instruction budget for the invocation\n" ++
  "  -v, --verbose...            Use once for module diagnostics, twice for every host call\n" ++
  "  -h, --help                  Print help\n" ++
  "  -V, --version               Print version\n"

end RecordGate.CommandLine
