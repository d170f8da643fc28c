import RecordGate.Toml.Line

/-! # Strings

A string stands between double quotes, where a backslash starts an escape, or between single quotes, where
it does not. Between single marks a string ends on its line; between marks of three it may go on over
lines, and a line that ends in a backslash is joined with what follows the next blanks and ends of
lines. -/

namespace RecordGate.Toml

/-- The two kinds of strings. -/
inductive Quote where
  /-- Between double quotes, with escapes. -/
  | basic
  /-- Between single quotes, as it stands. -/
  | literal
  deriving DecidableEq

/-- The mark at both ends of a string. -/
def Quote.mark : Quote → Char
  | .basic => '"'
  | .literal => '\x27'

/-! ### Digits -/

/-- The value of a hexadecimal digit. -/
def hexValue? (c : Char) : Option Nat :=
  if '0' ≤ c ∧ c ≤ '9' then some (c.toNat - '0'.toNat)
  else if 'a' ≤ c ∧ c ≤ 'f' then some (c.toNat - 'a'.toNat + 10)
  else if 'A' ≤ c ∧ c ≤ 'F' then some (c.toNat - 'A'.toNat + 10)
  else none

/-- The value of a digit in a base of at most sixteen. -/
def digit? (base : Nat) (c : Char) : Option Nat :=
  (hexValue? c).filter (· < base)

/-- The number that digits stand for. -/
def numeral (base : Nat) (digits : List Nat) : Nat :=
  digits.foldl (fun n d => n * base + d) 0

/-! ### Escapes -/

/-- Reads the number of a character in so many hexadecimal digits. -/
def readNumbered (count : Nat) (text : List Char) : Option (Char × List Char) := do
  let digits ← (text.take count).mapM hexValue?
  let number := numeral 16 digits
  if digits.length = count ∧ number.isValidChar then
    some (Char.ofNat number, text.drop count)
  else none

/-- Reads an escape after its backslash. -/
def readEscape : List Char → Option (Char × List Char)
  | '"' :: rest => some ('"', rest)
  | '\\' :: rest => some ('\\', rest)
  | 'b' :: rest => some ('\x08', rest)
  | 't' :: rest => some ('\t', rest)
  | 'n' :: rest => some ('\n', rest)
  | 'f' :: rest => some ('\x0c', rest)
  | 'r' :: rest => some ('\r', rest)
  | 'u' :: rest => readNumbered 4 rest
  | 'U' :: rest => readNumbered 8 rest
  | _ => none

/-- A blank or a character that ends a line. -/
def isGap (c : Char) : Bool :=
  isBlank c || c = '\n' || c = '\r'

/-- Skips blanks and ends of lines; a carriage return counts only before a line feed. -/
def skipGaps : List Char → List Char
  | '\r' :: '\n' :: rest => skipGaps rest
  | '\r' :: rest => '\r' :: rest
  | c :: rest => if isGap c then skipGaps rest else c :: rest
  | [] => []

/-- Reads the joint of two lines after its backslash. -/
def readJoint (text : List Char) : Option (List Char) :=
  (lineEnd? (skipBlanks text)).map skipGaps

theorem length_of_readNumbered {count : Nat} {text rest : List Char} {c : Char}
    (h : readNumbered count text = some (c, rest)) : rest.length ≤ text.length := by
  simp only [readNumbered, Option.bind_eq_bind, Option.bind_eq_some_iff] at h
  obtain ⟨digits, -, h⟩ := h
  split at h
  · simp only [Option.some.injEq, Prod.mk.injEq] at h
    obtain ⟨-, rfl⟩ := h
    simp
  · cases h

theorem length_of_readEscape {text rest : List Char} {c : Char} (h : readEscape text = some (c, rest)) :
    rest.length < text.length := by
  unfold readEscape at h
  split at h
  case h_8 => exact Nat.lt_succ_of_le (length_of_readNumbered h)
  case h_9 => exact Nat.lt_succ_of_le (length_of_readNumbered h)
  case h_10 => cases h
  all_goals
    simp only [Option.some.injEq, Prod.mk.injEq] at h
    obtain ⟨-, rfl⟩ := h
    simp

theorem length_skipGaps_le (text : List Char) : (skipGaps text).length ≤ text.length := by
  fun_induction skipGaps text with
  | case1 rest ih => simp only [List.length_cons]; omega
  | case2 => exact Nat.le_refl _
  | case3 c rest _ _ _ ih => simp only [List.length_cons]; omega
  | case4 => exact Nat.le_refl _
  | case5 => exact Nat.le_refl _

theorem length_of_readJoint {text rest : List Char} (h : readJoint text = some rest) :
    rest.length < text.length := by
  simp only [readJoint, Option.map_eq_some_iff] at h
  obtain ⟨after, hafter, rfl⟩ := h
  exact Nat.lt_of_le_of_lt (length_skipGaps_le after)
    (Nat.lt_of_lt_of_le (length_of_lineEnd? hafter) (length_skipBlanks_le text))

/-! ### Strings on one line -/

/-- Reads a string after its opening mark. -/
def readShort (quote : Quote) (text : List Char) : Option (List Char × List Char) :=
  match text with
  | [] => none
  | c :: rest =>
    if c = quote.mark then some ([], rest)
    else if c = '\\' ∧ quote = .basic then
      match _h : readEscape rest with
      | none => none
      | some (escaped, rest) => do
        let (more, rest) ← readShort quote rest
        return (escaped :: more, rest)
    else if isTextChar c then do
      let (more, rest) ← readShort quote rest
      return (c :: more, rest)
    else none
termination_by text.length
decreasing_by
  · have := length_of_readEscape ‹_›; simp only [List.length_cons]; omega
  · simp

/-! ### Strings over lines -/

/-- Reads the end of a long string. A run of up to five marks ends it, and those before the last three
    belong to the string. -/
def closeLong (quote : Quote) (text : List Char) : Option (List Char × List Char) :=
  let run := (text.takeWhile (· = quote.mark)).length
  if run < 3 then none
  else
    let extra := min (run - 3) 2
    some (List.replicate extra quote.mark, text.drop (extra + 3))

/-- Reads a long string after its opening marks. Every end of a line in it is a line feed. -/
def readLong (quote : Quote) (text : List Char) : Option (List Char × List Char) :=
  match closeLong quote text with
  | some closed => some closed
  | none =>
    match text with
    | [] => none
    | c :: rest =>
      if c = '\\' ∧ quote = .basic then
        match _h : readJoint rest with
        | some rest => readLong quote rest
        | none =>
          match _h : readEscape rest with
          | none => none
          | some (escaped, rest) => do
            let (more, rest) ← readLong quote rest
            return (escaped :: more, rest)
      else if isTextChar c then do
        let (more, rest) ← readLong quote rest
        return (c :: more, rest)
      else
        match _h : lineEnd? (c :: rest) with
        | none => none
        | some rest => do
          let (more, rest) ← readLong quote rest
          return ('\n' :: more, rest)
termination_by text.length
decreasing_by
  · have := length_of_readJoint ‹_›; simp only [List.length_cons]; omega
  · have := length_of_readEscape ‹_›; simp only [List.length_cons]; omega
  · simp
  · exact length_of_lineEnd? ‹_›

/-- Reads a string value, long or short. An end of a line right after the opening marks of a long string is
    dropped. -/
def readString (quote : Quote) (text : List Char) : Option (String × List Char) := do
  let (content, rest) ←
    match text with
    | a :: b :: c :: rest =>
      if a = quote.mark ∧ b = quote.mark ∧ c = quote.mark then
        readLong quote ((lineEnd? rest).getD rest)
      else if a = quote.mark then readShort quote (b :: c :: rest)
      else none
    | a :: rest => if a = quote.mark then readShort quote rest else none
    | [] => none
  return (String.ofList content, rest)

end RecordGate.Toml
