/-! # Text and its bytes

A text crosses every boundary of the gate as UTF-8. `bytes` writes it, `decode?` reads it back and
refuses anything that is not the encoding of a text, and `decodeLossy` reads any bytes at all, putting
the replacement character for each piece that cannot be part of a text. The two readers agree wherever
the strict one accepts. -/

namespace RecordGate.Text

/-- The UTF-8 encoding of a text. -/
def bytes (text : String) : List UInt8 :=
  text.toByteArray.data.toList

/-- The text that the bytes encode, when they encode one. -/
def decode? (bs : List UInt8) : Option String :=
  String.fromUTF8? ⟨bs.toArray⟩

/-- The character whose encoding the bytes start with. No encoding is longer than four bytes. -/
def firstChar? (bs : List UInt8) : Option Char :=
  (ByteArray.mk (bs.take 4).toArray).utf8DecodeChar? 0

/-- A byte that continues a character. -/
def isContinuation (b : UInt8) : Bool :=
  0x80 ≤ b && b ≤ 0xBF

/-- What a lead byte of a character of several bytes promises: how many bytes follow it, and the range
    of the first of them. -/
structure Promise where
  following : Nat
  low : UInt8
  high : UInt8

/-- The promise of a lead byte; the narrowed ranges exclude longer encodings than needed, surrogates and
    numbers above the last character. -/
def Promise.ofLead? (b : UInt8) : Option Promise :=
  if 0xC2 ≤ b && b ≤ 0xDF then some ⟨1, 0x80, 0xBF⟩
  else if b == 0xE0 then some ⟨2, 0xA0, 0xBF⟩
  else if b == 0xED then some ⟨2, 0x80, 0x9F⟩
  else if 0xE1 ≤ b && b ≤ 0xEF then some ⟨2, 0x80, 0xBF⟩
  else if b == 0xF0 then some ⟨3, 0x90, 0xBF⟩
  else if 0xF1 ≤ b && b ≤ 0xF3 then some ⟨3, 0x80, 0xBF⟩
  else if b == 0xF4 then some ⟨3, 0x80, 0x8F⟩
  else none

/-- How many bytes after the first belong to the broken piece that the bytes start with: those that keep
    the promise of the lead byte, up to where it is broken. -/
def brokenTail (lead : UInt8) (rest : List UInt8) : Nat :=
  match Promise.ofLead? lead, rest with
  | some promise, second :: more =>
    if promise.low ≤ second ∧ second ≤ promise.high then
      1 + ((more.take (promise.following - 2)).takeWhile isContinuation).length
    else 0
  | _, _ => 0

/-- The characters of any bytes: the encoded ones, and a replacement character for each broken piece. -/
def lossyChars : List UInt8 → List Char
  | [] => []
  | b :: rest =>
    match firstChar? (b :: rest) with
    | some c => c :: lossyChars (rest.drop (c.utf8Size - 1))
    | none => '\uFFFD' :: lossyChars (rest.drop (brokenTail b rest))
termination_by bs => bs.length
decreasing_by all_goals simp only [List.length_drop, List.length_cons]; omega

/-- The text of any bytes, with replacement characters where they encode none. -/
def decodeLossy (bs : List UInt8) : String :=
  String.ofList (lossyChars bs)

/-- How many bytes from the start encode whole characters before the first broken piece. -/
def validLength : List UInt8 → Nat
  | [] => 0
  | b :: rest =>
    match firstChar? (b :: rest) with
    | some c => c.utf8Size + validLength (rest.drop (c.utf8Size - 1))
    | none => 0
termination_by bs => bs.length
decreasing_by simp only [List.length_drop, List.length_cons]; omega

end RecordGate.Text
