import RecordGate.Json.Fault
import RecordGate.Text.Utf8

/-! # Blanks, words and strings

Each reader takes what is left of a text and gives what it read together with the bytes after it. A string
can be read, which decodes its escapes and checks that it is a text, or skipped, which only looks for its
end. -/

namespace RecordGate.Json

/-! ### Bytes with a meaning -/

namespace Mark

/-- `"` -/
def quote : UInt8 := 0x22
/-- `\` -/
def backslash : UInt8 := 0x5C
/-- `,` -/
def comma : UInt8 := 0x2C
/-- `:` -/
def colon : UInt8 := 0x3A
/-- `[` -/
def openArray : UInt8 := 0x5B
/-- `]` -/
def closeArray : UInt8 := 0x5D
/-- The brace that opens an object. -/
def openObject : UInt8 := 0x7B
/-- The brace that closes an object. -/
def closeObject : UInt8 := 0x7D
/-- `-` -/
def minus : UInt8 := 0x2D
/-- `+` -/
def plus : UInt8 := 0x2B
/-- `.` -/
def point : UInt8 := 0x2E

end Mark

/-- Space, tab, line feed and carriage return. -/
def isBlank (b : UInt8) : Bool :=
  b == 0x20 || b == 0x09 || b == 0x0A || b == 0x0D

/-- The text from its first byte that is not blank. -/
def skipBlanks (text : List UInt8) : List UInt8 :=
  text.dropWhile isBlank

/-- Reads a word of which the first letter has been read. -/
def expectWord : List UInt8 → List UInt8 → Except Fault (List UInt8)
  | [], text => .ok text
  | _ :: _, [] => .error ⟨.endInValue, 0⟩
  | w :: word, b :: rest =>
    if b = w then expectWord word rest else .error (.before .expectedWord rest)

/-- What is left of `null` after its first letter. -/
def nullTail : List UInt8 := [0x75, 0x6C, 0x6C]

/-- What is left of `true` after its first letter. -/
def trueTail : List UInt8 := [0x72, 0x75, 0x65]

/-- What is left of `false` after its first letter. -/
def falseTail : List UInt8 := [0x61, 0x6C, 0x73, 0x65]

/-! ### Escapes -/

/-- The value of a hexadecimal digit. -/
def hexValue? (b : UInt8) : Option Nat :=
  if 0x30 ≤ b ∧ b ≤ 0x39 then some (b.toNat - 0x30)
  else if 0x61 ≤ b ∧ b ≤ 0x66 then some (b.toNat - 0x61 + 10)
  else if 0x41 ≤ b ∧ b ≤ 0x46 then some (b.toNat - 0x41 + 10)
  else none

/-- Reads four hexadecimal digits. -/
def readHex : List UInt8 → Except Fault (Nat × List UInt8)
  | a :: b :: c :: d :: rest =>
    match hexValue? a, hexValue? b, hexValue? c, hexValue? d with
    | some a, some b, some c, some d => .ok (((a * 16 + b) * 16 + c) * 16 + d, rest)
    | _, _, _, _ => .error (.before .invalidEscape rest)
  | _ => .error ⟨.endInString, 0⟩

/-- The character of an escape of one letter. -/
def letterEscape? (b : UInt8) : Option Char :=
  if b = Mark.quote then some '"'
  else if b = Mark.backslash then some '\\'
  else if b = 0x2F then some '/'
  else if b = 0x62 then some '\x08'
  else if b = 0x66 then some '\x0c'
  else if b = 0x6E then some '\n'
  else if b = 0x72 then some '\r'
  else if b = 0x74 then some '\t'
  else none

/-- The letter of an escape by number. -/
def numberLetter : UInt8 := 0x75

/-- Reads a byte that must follow the first half of a pair of surrogates. -/
def expectPair (expected : UInt8) : List UInt8 → Except Fault (List UInt8)
  | [] => .error ⟨.endInString, 0⟩
  | b :: rest => if b = expected then .ok rest else .error (.before .endOfSurrogates rest)

/-- Reads the number of an escape, and the second one where the first is half of a pair. -/
def readNumberEscape (text : List UInt8) : Except Fault (Char × List UInt8) := do
  let (n, rest) ← readHex text
  if 0xDC00 ≤ n ∧ n ≤ 0xDFFF then .error (.before .loneSurrogate rest)
  else if n < 0xD800 ∨ 0xDBFF < n then .ok (Char.ofNat n, rest)
  else
    let rest ← expectPair Mark.backslash rest
    let rest ← expectPair numberLetter rest
    let (m, rest) ← readHex rest
    if 0xDC00 ≤ m ∧ m ≤ 0xDFFF then
      .ok (Char.ofNat ((n - 0xD800) * 0x400 + (m - 0xDC00) + 0x10000), rest)
    else .error (.before .loneSurrogate rest)

/-- Reads an escape after its backslash. -/
def readEscape : List UInt8 → Except Fault (Char × List UInt8)
  | [] => .error ⟨.endInString, 0⟩
  | b :: rest =>
    if b = numberLetter then readNumberEscape rest
    else match letterEscape? b with
      | some c => .ok (c, rest)
      | none => .error (.before .invalidEscape rest)

/-- Skips an escape after its backslash; its number may be any four digits. -/
def skipEscape : List UInt8 → Except Fault (List UInt8)
  | [] => .error ⟨.endInString, 0⟩
  | b :: rest =>
    if b = numberLetter then (readHex rest).map Prod.snd
    else match letterEscape? b with
      | some _ => .ok rest
      | none => .error (.before .invalidEscape rest)

/-! ### Escapes shorten the text -/

theorem length_of_readHex {text rest : List UInt8} {n : Nat} (h : readHex text = .ok (n, rest)) :
    rest.length < text.length := by
  unfold readHex at h
  split at h
  · split at h
    · simp only [Except.ok.injEq, Prod.mk.injEq] at h
      obtain ⟨-, rfl⟩ := h
      simp only [List.length_cons]; omega
    · cases h
  · cases h

theorem length_of_expectPair {b : UInt8} {text rest : List UInt8} (h : expectPair b text = .ok rest) :
    rest.length < text.length := by
  unfold expectPair at h
  split at h
  · cases h
  · split at h
    · cases h; simp
    · cases h

theorem length_of_readNumberEscape {text rest : List UInt8} {c : Char}
    (h : readNumberEscape text = .ok (c, rest)) : rest.length < text.length := by
  unfold readNumberEscape at h
  simp only [bind, Except.bind] at h
  split at h
  · cases h
  · rename_i first hfirst
    have := length_of_readHex hfirst
    split at h
    · cases h
    · split at h
      · simp only [Except.ok.injEq, Prod.mk.injEq] at h
        obtain ⟨-, rfl⟩ := h
        assumption
      · split at h
        · cases h
        · rename_i slash hslash
          split at h
          · cases h
          · rename_i letter hletter
            split at h
            · cases h
            · rename_i second hsecond
              have h₁ := length_of_expectPair hslash
              have h₂ := length_of_expectPair hletter
              have h₃ := length_of_readHex hsecond
              split at h
              · simp only [Except.ok.injEq, Prod.mk.injEq] at h
                obtain ⟨-, rfl⟩ := h
                omega
              · cases h

theorem length_of_readEscape {text rest : List UInt8} {c : Char} (h : readEscape text = .ok (c, rest)) :
    rest.length < text.length := by
  unfold readEscape at h
  split at h
  · cases h
  · split at h
    · have := length_of_readNumberEscape h
      simp only [List.length_cons]; omega
    · split at h
      · cases h; simp
      · cases h

theorem length_of_skipEscape {text rest : List UInt8} (h : skipEscape text = .ok rest) :
    rest.length < text.length := by
  unfold skipEscape at h
  split at h
  · cases h
  · split at h
    · rename_i b tail _
      cases hx : readHex tail with
      | error f => rw [hx] at h; cases h
      | ok read =>
        rw [hx] at h; cases h
        have := length_of_readHex hx
        simp only [List.length_cons]; omega
    · split at h
      · cases h; simp
      · cases h

/-! ### Strings -/

/-- Reads the bytes of a string after its opening quote, with the escapes decoded. -/
def unescape (text : List UInt8) : Except Fault (List UInt8 × List UInt8) :=
  match text with
  | [] => .error ⟨.endInString, 0⟩
  | b :: rest =>
    if b = Mark.quote then .ok ([], rest)
    else if b = Mark.backslash then
      match _h : readEscape rest with
      | .error fault => .error fault
      | .ok (c, after) => do
        let (more, rest) ← unescape after
        return (String.utf8EncodeChar c ++ more, rest)
    else if b < 0x20 then .error (.before .controlCharacter rest)
    else do
      let (more, rest) ← unescape rest
      return (b :: more, rest)
termination_by text.length
decreasing_by
  · have := length_of_readEscape ‹_›; simp only [List.length_cons]; omega
  · simp

/-- Reads a string after its opening quote. Where its bytes are no text the fault is counted back from the
end of the string, by as many bytes as its content has from the first that breaks it on. In a string without
escapes that is the place of that byte. -/
def readString (text : List UInt8) : Except Fault (String × List UInt8) := do
  let (content, rest) ← unescape text
  match Text.decode? content with
  | some s => return (s, rest)
  | none => .error ⟨.invalidText, rest.length + (content.length - Text.validLength content)⟩

/-- Skips a string after its opening quote. -/
def skipString (text : List UInt8) : Except Fault (List UInt8) :=
  match text with
  | [] => .error ⟨.endInString, 0⟩
  | b :: rest =>
    if b = Mark.quote then .ok rest
    else if b = Mark.backslash then
      match _h : skipEscape rest with
      | .error fault => .error fault
      | .ok after => skipString after
    else if b < 0x20 then .error (.before .controlCharacter (b :: rest))
    else skipString rest
termination_by text.length
decreasing_by
  · have := length_of_skipEscape ‹_›; simp only [List.length_cons]; omega
  · simp

end RecordGate.Json
