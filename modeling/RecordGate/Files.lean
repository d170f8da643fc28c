import RecordGate.Text.Utf8

/-! # Files

What a program can read. `Files` says what it finds under a path. A `FileTree` gives the files and directories
under a working directory; a path is walked name by name, so what is wrong with it is found at its first
bad step. Nothing outside the working directory can be found, except that there are directories. -/

namespace RecordGate

/-- Why a file cannot be read. -/
inductive FileError where
  | notFound
  | denied
  | notDirectory
  | isDirectory
  | nameTooLong
  | zeroInName
  | notText
  | other (message : String)
  deriving DecidableEq

/-- The wording of the error. -/
def FileError.message : FileError → String
  | .notFound => "No such file or directory (os error 2)"
  | .denied => "Permission denied (os error 13)"
  | .notDirectory => "Not a directory (os error 20)"
  | .isDirectory => "Is a directory (os error 21)"
  | .nameTooLong => "File name too long (os error 36)"
  | .zeroInName => "file name contained an unexpected NUL byte"
  | .notText => "stream did not contain valid UTF-8"
  | .other message => message

/-- The content of the file at each path. -/
abbrev Files := String → Except FileError (List UInt8)

/-- The text of a file. -/
def Files.text (files : Files) (path : String) : Except FileError String := do
  match Text.decode? (← files path) with
  | some text => return text
  | none => .error .notText

/-! ### Paths -/

/-- The steps of a path, between its slashes. -/
def pathSteps (path : String) : List String :=
  path.splitOn "/"

/-- The last name of a path, unless the path ends by going up or has no names. -/
def fileName? (path : String) : Option String :=
  ((pathSteps path).filter fun step => step ≠ "" ∧ step ≠ ".").getLast?.filter (· ≠ "..")

/-- A name up to its last dot, unless nothing stands before that dot. -/
def stem (name : String) : String :=
  match (name.toList.reverse.dropWhile (· ≠ '.')).drop 1 with
  | [] => name
  | before => String.ofList before.reverse

/-! ### Trees -/

/-- What a path leads to. -/
inductive Node where
  | file (content : List UInt8)
  | directory

/-- Files and directories by the names on the way to them. The directories on the way to an entry are
    entries too, if only by that. -/
structure FileTree where
  entries : List (List String × Node)

/-- The directory a walk has come to: one under the working directory, or one outside it. -/
inductive Place where
  | inside (names : List String)
  | outside

namespace FileTree

/-- What has the given names, if anything. -/
def node? (tree : FileTree) (names : List String) : Option Node :=
  match tree.entries.find? (·.1 = names) with
  | some (_, node) => some node
  | none =>
    if names.isEmpty || tree.entries.any (names.isPrefixOf ·.1) then some .directory else none

/-- Walks from a directory along the steps of a path. Empty steps and single dots stay where they are, and
    two dots go up. A file may only be the last step. -/
def walk (tree : FileTree) (place : Place) : List String → Except FileError Node
  | [] => .ok .directory
  | step :: rest =>
    if step = "" ∨ step = "." then walk tree place rest
    else if step = ".." then
      match place with
      | .inside names =>
        walk tree (if names.isEmpty then .outside else .inside names.dropLast) rest
      | .outside => walk tree .outside rest
    else if 255 < step.utf8ByteSize then .error .nameTooLong
    else
      match place with
      | .outside => .error .notFound
      | .inside names =>
        match tree.node? (names ++ [step]) with
        | none => .error .notFound
        | some .directory => walk tree (.inside (names ++ [step])) rest
        | some (.file content) => if rest.isEmpty then .ok (.file content) else .error .notDirectory

/-- What a path leads to. -/
def resolve (tree : FileTree) (path : String) : Except FileError Node :=
  if path.contains '\x00' then .error .zeroInName
  else if path = "" then .error .notFound
  else if 4096 ≤ path.utf8ByteSize then .error .nameTooLong
  else walk tree (if path.startsWith "/" then .outside else .inside []) (pathSteps path)

/-- The files of a tree. -/
def files (tree : FileTree) : Files := fun path => do
  match ← tree.resolve path with
  | .file content => return content
  | .directory => .error .isDirectory

end RecordGate.FileTree
