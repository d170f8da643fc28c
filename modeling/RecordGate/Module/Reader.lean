import RecordGate.Json.Reader
import RecordGate.Module.Engine
import RecordGate.Module.WellFormed

/-! # Reading module scripts

A script is written as a JSON object: its memory, the data in it, its imports, its entry and its steps. An
engine for scripts (`scriptEngine`) stands in where there is none for compiled modules: a file that it compiles
is a mark followed by a script. -/

namespace RecordGate.Module
open Host
open Json (Value)

/-! ### Members -/

/-- A member that is there and is not null. -/
def given? (value : Value) (key : String) : Option Value :=
  match value.member? key with
  | some .null | none => none
  | some member => some member

/-- An integer. -/
def readInt : Value → Option Int
  | .int i => some i
  | _ => none

/-- An integer that is not negative. -/
def readNat : Value → Option Nat
  | .int (.ofNat n) => some n
  | _ => none

/-- A text. -/
def readText : Value → Option String
  | .string text => some text
  | _ => none

/-- The bytes that pairs of hexadecimal digits write. -/
def readHexPairs : List UInt8 → Option (List UInt8)
  | [] => some []
  | a :: b :: rest => do
    let high ← Json.hexValue? a
    let low ← Json.hexValue? b
    let more ← readHexPairs rest
    return UInt8.ofNat (high * 16 + low) :: more
  | _ => none

/-- Bytes: those of a text, or those that a member `hex` writes; null stands for none. -/
def readBytes : Value → Option (List UInt8)
  | .null => some []
  | .string text => some (Text.bytes text)
  | value => do
    let digits ← (value.member? "hex").bind readText
    readHexPairs (Text.bytes digits)

/-- A member that may be missing. -/
def readOptional {α : Type} (read : Value → Option α) (value : Value) (key : String) : Option (Option α) :=
  match given? value key with
  | none => some none
  | some member => (read member).map some

/-- A member with a default. -/
def readOr {α : Type} (read : Value → Option α) (default : α) (value : Value) (key : String) : Option α :=
  (readOptional read value key).map (·.getD default)

/-- The items of a member; one that is missing has none. -/
def readList {α : Type} (read : Value → Option α) (value : Value) (key : String) : Option (List α) :=
  match given? value key with
  | none => some []
  | some (.array items) => items.mapM read
  | some _ => none

/-! ### Steps -/

/-- An operand: a number, or a slot. -/
def readOperand (value : Value) (key : String) : Option Operand := do
  let operand ← value.member? key
  match given? operand "slot" with
  | some index => return .slot (← readNat index)
  | none => return .const (Int32.ofInt (← readInt operand))

/-- The two parts of the name of an import, before and after its first dot. -/
def importName (name : String) : String × String :=
  match name.splitOn "." with
  | [] => ("", "")
  | first :: rest => (first, ".".intercalate rest)

/-- The host function that a step names, with the operands of the step. -/
def readRequest (value : Value) : String → Option (HostRequest Operand)
  | "data" => do return .fetch .current (← readOperand value "len") (← readOperand value "ptr")
  | "previous_data" => do return .fetch .previous (← readOperand value "len") (← readOperand value "ptr")
  | "diagnostic" => do return .diagnostic (← readOperand value "len") (← readOperand value "ptr")
  | "error" => do
    return .error (← readOperand value "flen") (← readOperand value "fptr")
      (← readOperand value "mlen") (← readOperand value "mptr")
  | "warn" => do
    return .warn (← readOperand value "flen") (← readOperand value "fptr")
      (← readOperand value "mlen") (← readOperand value "mptr")
  | "set" => do
    return .set (← readOperand value "flen") (← readOperand value "fptr")
      (← readOperand value "mlen") (← readOperand value "mptr")
  | "set_required" => do
    return .setRequired (← readOperand value "len") (← readOperand value "ptr") (← readOperand value "value")
  | "set_display" => do
    return .setDisplay (← readOperand value "len") (← readOperand value "ptr") (← readOperand value "value")
  | _ => none

/-- Reads a step in which so many branches may be nested. -/
def readStep : Nat → Value → Option Step
  | 0, _ => none
  | depth + 1, value => do
    let into ← readOptional readNat value "into"
    let operand := readOperand value
    match ← (value.member? "do").bind readText with
    | "import" =>
      let (module, field) := importName (← (value.member? "name").bind readText)
      return .callImport module field
    | "grow" => return .grow (← operand "pages") into
    | "size" => return .size into
    | "store" => return .store (← operand "addr") (← operand "value")
    | "store8" => return .storeByte (← operand "addr") (← operand "value")
    | "load" => return .load (← operand "addr") into
    | "copy" => return .copy (← operand "dst") (← operand "src") (← operand "len")
    | "add" => return .add (← operand "a") (← operand "b") into
    | "div" => return .divide (← operand "a") (← operand "b") into
    | "if" =>
      return .branch (← operand "a") (← operand "b") (← readList (readStep depth) value "then")
        (← readList (readStep depth) value "else")
    | "return" => return .finish
    | "trap" => return .trap
    | "spin" => return .spin
    | "recurse" => return .recurse
    | name => return .host (← readRequest value name) into

/-- Steps nest no deeper than JSON values may. -/
def readSteps (value : Value) (key : String) : Option (List Step) :=
  readList (readStep Json.nestingLimit) value key

/-! ### Modules -/

/-- An import. -/
def readImport (value : Value) : Option Import := do
  let (module, field) := importName (← (value.member? "name").bind readText)
  let kind ← match ← readOr readText "func" value "kind" with
    | "func" => do
      pure (ImportKind.function (← readOr readNat 0 value "params") (← readOr readNat 0 value "results"))
    | "global" => some .global
    | "table" => some .table
    | _ => none
  return ⟨module, field, kind⟩

/-- A piece of data and its place in memory. -/
def readData : Value → Option (UInt32 × List UInt8)
  | .array [offset, bytes] => do return ((Int32.ofInt (← readInt offset)).toUInt32, ← readBytes bytes)
  | _ => none

/-- The memory of a module. -/
def readMemory (value : Value) : Option (Option MemoryDeclaration) := do
  let pages ← readOr readNat 1 value "pages"
  let maximum ← readOptional readNat value "max_pages"
  match ← readOr readText "exported" value "memory" with
  | "exported" => return some ⟨pages, maximum, some "memory"⟩
  | "renamed" => return some ⟨pages, maximum, some "mem"⟩
  | "private" | "not_a_memory" => return some ⟨pages, maximum, none⟩
  | "none" => return none
  | _ => none

/-- What a module exports as its entry. -/
def readEntry (value : Value) : Option Entry := do
  match ← readOr readText "func" value "entry_kind" with
  | "func" => return .function (← readSteps value "steps")
  | "param" | "result" => return .otherFunction
  | "global" => return .noFunction
  | "none" => return .missing
  | _ => none

/-- What a module exports besides its memory and its entry: instead of a memory it may export a function
under the name of one. -/
def readOtherExports (value : Value) : Option (List String) := do
  if (← readOr readText "exported" value "memory") = "not_a_memory" then return ["memory"] else return []

/-- The module of a script. -/
def ofScript? (value : Value) : Option Module := do
  let imports ← readList readImport value "imports"
  let memory ← readMemory value
  let otherExports ← readOtherExports value
  let data ← readList readData value "data"
  let start ← match given? value "start" with
    | none => pure none
    | some _ => (readSteps value "start").map some
  let entryName ← readOr readText "validate" value "entry"
  let entry ← readEntry value
  return ⟨imports, memory, otherExports, data, start, entryName, entry⟩

/-! ### An engine for scripts -/

/-- The bytes that the file of a script starts with. -/
def scriptMark : List UInt8 := [0x00, 0x61, 0x73, 0x6D, 0x01, 0x00, 0x00, 0x00]

/-- What is said of a file that is no script of a module. -/
def noScript : String := "not a module script"

/-- The module of the file of a script, if it is one that compiles. -/
def compileScript (bytes : List UInt8) : Except String Module :=
  if scriptMark.isPrefixOf bytes then
    match (Json.parse (bytes.drop scriptMark.length)).toOption.bind ofScript? with
    | some module => if module.WellFormed then .ok module else .error noScript
    | none => .error noScript
  else .error noScript

/-- An engine for scripts. Every step takes one unit of fuel, and so does every round of a loop. The fuel is looked
at where a function is entered, and nothing is said of places. -/
def scriptEngine : Engine where
  compile := compileScript
  cost _ _ := 1
  looks _ step := match step with
    | .enter => true
    | _ => false
  roundCost := 1
  roundCost_pos := Nat.one_pos
  depth := 10000
  place _ _ := ""

end RecordGate.Module
