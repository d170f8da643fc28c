import RecordGate.Toml.Moment
import RecordGate.Toml.Number
import RecordGate.Toml.Table

/-! # Reading TOML

A document is read line by line: pairs, headers, comments and blank lines. The lines make sections, and the
sections make the tables of the document. Values may be nested to a limit. A text that is no document has no
entries; what is wrong with it is not said. -/

namespace RecordGate.Toml

/-! ### Values -/

/-- Reads a value that holds no other values. -/
def readScalar (text : List Char) : Option (Value × List Char) :=
  match text with
  | [] => none
  | c :: rest =>
    if c = Quote.basic.mark then (readString .basic text).map fun (s, rest) => (.string s, rest)
    else if c = Quote.literal.mark then (readString .literal text).map fun (s, rest) => (.string s, rest)
    else
      match c, rest with
      | 't', 'r' :: 'u' :: 'e' :: rest => some (.bool true, rest)
      | 'f', 'a' :: 'l' :: 's' :: 'e' :: rest => some (.bool false, rest)
      | _, _ =>
        ((readMoment text).map fun (s, rest) => (.moment s, rest)) <|>
        ((readDouble text).map fun (x, rest) => (.double x, rest)) <|>
        ((readInteger text).map fun (i, rest) => (.int i, rest))

/-- Reads the items of an array after its bracket. The last one may have a comma after it. -/
def readItems (value : List Char → Option (Value × List Char)) (text : List Char) :
    Option (List Value × List Char) :=
  match skipLines text with
  | ']' :: rest => some ([], rest)
  | start => do
    let (first, rest) ← value start
    match skipLines rest with
    | ']' :: rest => return ([first], rest)
    | ',' :: rest =>
      if rest.length < text.length then
        let (more, rest) ← readItems value rest
        return (first :: more, rest)
      else none
    | _ => none
termination_by text.length

/-- Reads a key, an equals sign and a value. -/
def readPair (value : List Char → Option (Value × List Char)) (text : List Char) :
    Option (Pair × List Char) := do
  let (key, rest) ← readKey text
  let rest ← expect '=' rest
  let (value, rest) ← value (skipBlanks rest)
  return (⟨key, value⟩, skipBlanks rest)

/-- Reads the pairs of an inline table after its brace. -/
def readPairs (value : List Char → Option (Value × List Char)) (text : List Char) :
    Option (List Pair × List Char) :=
  match expect '\x7d' (skipBlanks text) with
  | some rest => some ([], rest)
  | none => do
    let (pairs, rest) ← readSeparated ',' (readPair value) text
    return (pairs, ← expect '\x7d' rest)

/-- Reads a value in which so many arrays and inline tables may be open at once. -/
def readValue : Nat → List Char → Option (Value × List Char)
  | 0, text => readScalar text
  | depth + 1, text =>
    match text with
    | '[' :: rest => do
      let (items, rest) ← readItems (readValue depth) rest
      return (.array items, rest)
    | '\x7b' :: rest => do
      let (pairs, rest) ← readPairs (readValue depth) rest
      return (← tableOfPairs pairs, rest)
    | _ => readScalar text

/-- The number of arrays and inline tables that may be open at once. -/
def nestingLimit : Nat := 79

/-! ### Lines -/

/-- What a line says. -/
inductive Line where
  | blank
  | pair (pair : Pair)
  | header (header : Header)

/-- Reads a line that starts with no blanks, up to where the rest of the line may follow. -/
def readLine (text : List Char) : Option (Line × List Char) :=
  match text with
  | [] => some (.blank, [])
  | '#' :: _ | '\n' :: _ | '\r' :: _ => some (.blank, text)
  | '[' :: '[' :: rest => do
    let (key, rest) ← readKey rest
    let rest ← expect ']' rest
    let rest ← expect ']' rest
    return (.header (.element key), rest)
  | '[' :: rest => do
    let (key, rest) ← readKey rest
    let rest ← expect ']' rest
    return (.header (.table key), rest)
  | _ => do
    let (pair, rest) ← readPair (readValue nestingLimit) text
    return (.pair pair, rest)

/-- Reads all lines. -/
def readLines (text : List Char) : Option (List Line) :=
  if text = [] then some []
  else do
    let (line, rest) ← readLine (skipBlanks text)
    let rest ← restOfLine? rest
    if rest.length < text.length then
      let more ← readLines rest
      return line :: more
    else none
termination_by text.length

/-- The document of lines: each pair belongs to the header above it. -/
def Document.ofLines : List Line → Document
  | [] => ⟨[], []⟩
  | line :: rest =>
    let ⟨pairs, sections⟩ := ofLines rest
    match line with
    | .blank => ⟨pairs, sections⟩
    | .pair pair => ⟨pair :: pairs, sections⟩
    | .header header => ⟨[], ⟨header, pairs⟩ :: sections⟩

/-- The mark that a document may start with. -/
def byteOrderMark : Char := '\uFEFF'

/-- Reads a document: the entries of its outermost table. -/
def parse (text : String) : Option (List (String × Value)) := do
  let lines ← readLines <| match text.toList with
    | [] => []
    | c :: rest => if c = byteOrderMark then rest else c :: rest
  (Document.ofLines lines).entries

end RecordGate.Toml
