/-! # Blanks, comments and ends of lines

Every reader of a document takes what is left of its characters and gives what it read together with the
characters after it, or nothing if it cannot read. -/

namespace RecordGate.Toml

/-- The character that deletes, which no document contains. -/
def delete : Char := '\x7f'

/-- Spaces and tabs. -/
def isBlank (c : Char) : Bool :=
  c = ' ' || c = '\t'

/-- What a comment or a string may contain: all but control characters, and tabs. -/
def isTextChar (c : Char) : Bool :=
  c = '\t' || (' ' ≤ c && c ≠ delete)

/-- The text from its first character that is not blank. -/
def skipBlanks (text : List Char) : List Char :=
  text.dropWhile isBlank

/-- The text after a comment that it starts with. -/
def skipComment : List Char → List Char
  | '#' :: rest => rest.dropWhile isTextChar
  | text => text

/-- Reads the end of a line: a line feed, perhaps after a carriage return. -/
def lineEnd? : List Char → Option (List Char)
  | '\n' :: rest => some rest
  | '\r' :: '\n' :: rest => some rest
  | _ => none

/-- Reads what may follow an entry on its line: blanks, a comment, and the end of the line or the text. -/
def restOfLine? (text : List Char) : Option (List Char) :=
  match skipComment (skipBlanks text) with
  | [] => some []
  | rest => lineEnd? rest

/-! ### Skipping shortens the text -/

theorem length_skipBlanks_le (text : List Char) : (skipBlanks text).length ≤ text.length :=
  (List.dropWhile_suffix isBlank).length_le

theorem length_skipComment_le (text : List Char) : (skipComment text).length ≤ text.length := by
  unfold skipComment
  split
  · exact Nat.le_succ_of_le (List.dropWhile_suffix isTextChar).length_le
  · exact Nat.le_refl _

theorem length_of_lineEnd? {text rest : List Char} (h : lineEnd? text = some rest) :
    rest.length < text.length := by
  unfold lineEnd? at h
  split at h
  · cases h; simp
  · cases h; simp only [List.length_cons]; omega
  · cases h

/-- Skips blanks, comments and ends of lines. -/
def skipLines (text : List Char) : List Char :=
  match _h : lineEnd? (skipComment (skipBlanks text)) with
  | some rest => skipLines rest
  | none => skipComment (skipBlanks text)
termination_by text.length
decreasing_by
  exact Nat.lt_of_lt_of_le (length_of_lineEnd? ‹_›)
    (Nat.le_trans (length_skipComment_le _) (length_skipBlanks_le _))

end RecordGate.Toml
