import RecordGate.Toml.Quoted

/-! # Keys

A key is a path: names with points between them, each bare or quoted like a string on one line. -/

namespace RecordGate.Toml

/-- A path of names: those of the tables on the way, and the last one. -/
structure KeyPath where
  parents : List String
  last : String
  deriving DecidableEq

/-- The number of names that no path reaches. -/
def pathLimit : Nat := 80

/-- What a bare name may contain. -/
def isBareChar (c : Char) : Bool :=
  c.isAlphanum || c = '-' || c = '_'

/-- Reads one name. -/
def readName (text : List Char) : Option (String × List Char) := do
  let (name, rest) ←
    match text with
    | [] => none
    | c :: rest =>
      if c = Quote.basic.mark then readShort .basic rest
      else if c = Quote.literal.mark then readShort .literal rest
      else if isBareChar c then some (text.takeWhile isBareChar, text.dropWhile isBareChar)
      else none
  return (String.ofList name, rest)

/-- Reads one or more items with a mark after each but the last. An item that reads nothing is refused. -/
def readSeparated {α : Type} (mark : Char) (item : List Char → Option (α × List Char))
    (text : List Char) : Option (List α × List Char) :=
  match item text with
  | none => none
  | some (first, []) => some ([first], [])
  | some (first, c :: rest) =>
    if c = mark then
      if rest.length < text.length then do
        let (more, rest) ← readSeparated mark item rest
        return (first :: more, rest)
      else none
    else some ([first], c :: rest)
termination_by text.length

/-- Reads a key, with the blanks around its names. -/
def readKey (text : List Char) : Option (KeyPath × List Char) := do
  let (names, rest) ← readSeparated '.' (fun text => do
    let (name, rest) ← readName (skipBlanks text)
    return (name, skipBlanks rest)) text
  let last ← names.getLast?
  if names.length < pathLimit then return (⟨names.dropLast, last⟩, rest) else none

end RecordGate.Toml
