import RecordGate.Module.Reader
import RecordGate.Program

/-! # The executable

Reads the files that the program may ask for, runs it on them, and prints how it ended. Modules are scripts. -/

namespace RecordGate.Main
open CommandLine

/-- Why a file could not be read. The system gives the number of an error with or without a minus. -/
def fileError (e : IO.Error) : FileError :=
  let number : UInt32 := match e with
    | .noFileOrDirectory _ code _ | .permissionDenied _ code _ | .inappropriateType _ code _
    | .invalidArgument _ code _ | .otherError code _ | .illegalOperation code _ => code
    | _ => 0
  match min number (-number) with
  | 2 => .notFound
  | 13 => .denied
  | 20 => .notDirectory
  | 21 => .isDirectory
  | 36 => .nameTooLong
  | _ => .other (toString e)

/-- Reads a file. -/
def readFile (path : String) : IO (Except FileError (List UInt8)) := do
  if path.contains '\x00' then return .error .zeroInName
  try
    return .ok (← IO.FS.readBinFile path).data.toList
  catch e =>
    return .error (fileError e)

/-- The files with one more that has been read. -/
def withFile (files : Files) (path : String) : IO Files := do
  let content ← readFile path
  return fun asked => if asked = path then content else files asked

/-- Reads all files that the program may ask for: that of the settings, and then those which they name. -/
def gather (options : Options) : IO Files := do
  let files ← options.config.toList.foldlM withFile fun _ => .error .notFound
  match Program.settings files options with
  | .error _ => return files
  | .ok settings =>
    let paths := [settings.validator.path, settings.records.current, settings.records.previous]
    (paths.filterMap id).foldlM withFile files

/-- An engine for scripts, and no comments on documents. -/
def surroundings : Program.Surroundings where
  engine := Module.scriptEngine
  comments := ⟨fun _ => "", fun _ _ => ""⟩

/-- Runs the program with its arguments. -/
def run (arguments : List String) : IO UInt32 := do
  let files ← match CommandLine.parse arguments with
    | .ok options => gather options
    | .error _ => pure fun _ => .error .notFound
  let ending := Program.run surroundings files arguments
  IO.print ending.output
  IO.eprint ending.errors
  return ending.code.toUInt32

end RecordGate.Main

/-- The program. -/
def main (arguments : List String) : IO UInt32 :=
  RecordGate.Main.run arguments
