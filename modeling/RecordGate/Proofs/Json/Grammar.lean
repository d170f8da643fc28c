import RecordGate.Json.Number

/-! # The grammar of JSON texts

What a text writes, said without a reader. Each relation takes a text, what is written at its start, and the
rest that follows it: blanks, the content of a string behind its opening quote, a numeral, a scalar, and
with `Writes` a value with everything that is nested in it. A whole text `Denotes` a value if it writes it
between blanks. Texts of one value may differ in their blanks, in how they spell strings, in the order of
members, and in members that are overridden by later ones of the same key (`Collected`). -/

namespace RecordGate.Json

/-! ### Blanks -/

/-- Any number of blanks. -/
inductive Blanks : List UInt8 → List UInt8 → Prop where
  | none {rest : List UInt8} : Blanks rest rest
  | more {b : UInt8} {text rest : List UInt8} : isBlank b = true → Blanks text rest → Blanks (b :: text) rest

/-! ### Strings -/

/-- A byte of a string that stands for itself. -/
def IsPlain (b : UInt8) : Prop :=
  b ≠ Mark.quote ∧ b ≠ Mark.backslash ∧ 0x20 ≤ b.toNat

/-- Four hexadecimal digits, and their number. -/
inductive FourDigits : List UInt8 → Nat → List UInt8 → Prop where
  | mk {a b c d : UInt8} {i j k l : Nat} {rest : List UInt8} : hexValue? a = some i → hexValue? b = some j →
      hexValue? c = some k → hexValue? d = some l →
      FourDigits (a :: b :: c :: d :: rest) (((i * 16 + j) * 16 + k) * 16 + l) rest

/-- An escape behind its backslash, and the character that it stands for. A character above `0xFFFF` takes two
    numbers, of which neither stands for a character alone. -/
inductive Escape : List UInt8 → Char → List UInt8 → Prop where
  | letter {b : UInt8} {c : Char} {rest : List UInt8} : letterEscape? b = some c → Escape (b :: rest) c rest
  | number {text rest : List UInt8} {n : Nat} : FourDigits text n rest → n < 0xD800 ∨ 0xDFFF < n →
      Escape (numberLetter :: text) (Char.ofNat n) rest
  | pair {text more rest : List UInt8} {high low : Nat} :
      FourDigits text high (Mark.backslash :: numberLetter :: more) → 0xD800 ≤ high → high ≤ 0xDBFF →
      FourDigits more low rest → 0xDC00 ≤ low → low ≤ 0xDFFF →
      Escape (numberLetter :: text) (Char.ofNat ((high - 0xD800) * 0x400 + (low - 0xDC00) + 0x10000)) rest

/-- A string behind its opening quote, and the bytes of its content. -/
inductive Spells : List UInt8 → List UInt8 → List UInt8 → Prop where
  | close {rest : List UInt8} : Spells (Mark.quote :: rest) [] rest
  | plain {b : UInt8} {text content rest : List UInt8} : IsPlain b → Spells text content rest →
      Spells (b :: text) (b :: content) rest
  | escape {c : Char} {text after content rest : List UInt8} : Escape text c after → Spells after content rest →
      Spells (Mark.backslash :: text) (String.utf8EncodeChar c ++ content) rest

/-! ### Numerals -/

/-- At least one decimal digit. -/
inductive Digits : List UInt8 → List Nat → List UInt8 → Prop where
  | last {b : UInt8} {rest : List UInt8} : isDigit b = true → Digits (b :: rest) [digitValue b] rest
  | more {b : UInt8} {text rest : List UInt8} {digits : List Nat} : isDigit b = true → Digits text digits rest →
      Digits (b :: text) (digitValue b :: digits) rest

/-- The whole part of a numeral, which has no zeros in front. -/
inductive Whole : List UInt8 → List Nat → List UInt8 → Prop where
  | zero {rest : List UInt8} : Whole (0x30 :: rest) [0] rest
  | digits {b : UInt8} {text rest : List UInt8} {digits : List Nat} : b ≠ 0x30 →
      Digits (b :: text) digits rest → Whole (b :: text) digits rest

/-- The fraction of a numeral, if it has one. -/
inductive Fraction : List UInt8 → List Nat → List UInt8 → Prop where
  | none {rest : List UInt8} : Fraction rest [] rest
  | some {text rest : List UInt8} {digits : List Nat} : Digits text digits rest →
      Fraction (Mark.point :: text) digits rest

/-- The sign of an exponent, if it has one, and whether it is negative. -/
inductive Sign : List UInt8 → Bool → List UInt8 → Prop where
  | none {rest : List UInt8} : Sign rest false rest
  | plus {rest : List UInt8} : Sign (Mark.plus :: rest) false rest
  | minus {rest : List UInt8} : Sign (Mark.minus :: rest) true rest

/-- The exponent of a numeral, if it has one. -/
inductive Exponent : List UInt8 → Option (Bool × List Nat) → List UInt8 → Prop where
  | none {rest : List UInt8} : Exponent rest none rest
  | some {e : UInt8} {text start rest : List UInt8} {negative : Bool} {digits : List Nat} :
      e = 0x65 ∨ e = 0x45 → Sign text negative start → Digits start digits rest →
      Exponent (e :: text) (some (negative, digits)) rest

/-- A numeral behind its sign. -/
inductive Magnitude (negative : Bool) : List UInt8 → Literal → List UInt8 → Prop where
  | mk {text afterWhole afterFraction rest : List UInt8} {whole fraction : List Nat}
      {exponent : Option (Bool × List Nat)} : Whole text whole afterWhole →
      Fraction afterWhole fraction afterFraction → Exponent afterFraction exponent rest →
      Magnitude negative text ⟨negative, whole, fraction, exponent⟩ rest

/-- A numeral. -/
inductive Numeral : List UInt8 → Literal → List UInt8 → Prop where
  | positive {text rest : List UInt8} {literal : Literal} : Magnitude false text literal rest →
      Numeral text literal rest
  | negative {text rest : List UInt8} {literal : Literal} : Magnitude true text literal rest →
      Numeral (Mark.minus :: text) literal rest

/-! ### Values -/

/-- A value that is neither an array nor an object. -/
inductive Scalar : List UInt8 → Value → List UInt8 → Prop where
  | null {rest : List UInt8} : Scalar (0x6E :: (nullTail ++ rest)) .null rest
  | true {rest : List UInt8} : Scalar (0x74 :: (trueTail ++ rest)) (.bool true) rest
  | false {rest : List UInt8} : Scalar (0x66 :: (falseTail ++ rest)) (.bool false) rest
  | string {text rest : List UInt8} {s : String} : Spells text (Text.bytes s) rest →
      Scalar (Mark.quote :: text) (.string s) rest
  | number {text rest : List UInt8} {literal : Literal} {number : Number} : Numeral text literal rest →
      literal.value rest = .ok number → Scalar text number.toValue rest

/-- The key of a member and the colon behind it, up to the value of the member. -/
inductive Keyed : List UInt8 → String → List UInt8 → Prop where
  | mk {text keyText afterKey afterColon start : List UInt8} {key : String} :
      Blanks text (Mark.quote :: keyText) → Spells keyText (Text.bytes key) afterKey →
      Blanks afterKey (Mark.colon :: afterColon) → Blanks afterColon start → Keyed text key start

/-- What becomes of members that are written one behind the other: each key is there once, with the value that
    was written last for it, and the keys are in order. -/
structure Collected (written members : List (String × Value)) : Prop where
  ordered : (members.map Prod.fst).Pairwise (· < ·)
  lookup : ∀ key, members.lookup key = written.reverse.lookup key

/-- A part of a text: a value, or the items of an array or the members of an object up to the end of it, of
    which there is at least one. -/
inductive Part where
  | value (value : Value)
  | items (items : List Value)
  | members (written : List (String × Value))

/-- A part with at most `depth` arrays and objects nested in it. -/
inductive Writes : (depth : Nat) → List UInt8 → Part → List UInt8 → Prop where
  | scalar {depth : Nat} {text rest : List UInt8} {value : Value} : Scalar text value rest →
      Writes depth text (.value value) rest
  | emptyArray {depth : Nat} {text rest : List UInt8} : Blanks text (Mark.closeArray :: rest) →
      Writes (depth + 1) (Mark.openArray :: text) (.value (.array [])) rest
  | array {depth : Nat} {text rest : List UInt8} {items : List Value} : Writes depth text (.items items) rest →
      Writes (depth + 1) (Mark.openArray :: text) (.value (.array items)) rest
  | lastItem {depth : Nat} {text start after rest : List UInt8} {value : Value} : Blanks text start →
      Writes depth start (.value value) after → Blanks after (Mark.closeArray :: rest) →
      Writes depth text (.items [value]) rest
  | item {depth : Nat} {text start after more rest : List UInt8} {value : Value} {items : List Value} :
      Blanks text start → Writes depth start (.value value) after → Blanks after (Mark.comma :: more) →
      Writes depth more (.items items) rest → Writes depth text (.items (value :: items)) rest
  | emptyObject {depth : Nat} {text rest : List UInt8} : Blanks text (Mark.closeObject :: rest) →
      Writes (depth + 1) (Mark.openObject :: text) (.value (.object [])) rest
  | object {depth : Nat} {text rest : List UInt8} {written members : List (String × Value)} :
      Writes depth text (.members written) rest → Collected written members →
      Writes (depth + 1) (Mark.openObject :: text) (.value (.object members)) rest
  | lastMember {depth : Nat} {text start after rest : List UInt8} {key : String} {value : Value} :
      Keyed text key start → Writes depth start (.value value) after →
      Blanks after (Mark.closeObject :: rest) → Writes depth text (.members [(key, value)]) rest
  | member {depth : Nat} {text start after more rest : List UInt8} {key : String} {value : Value}
      {written : List (String × Value)} : Keyed text key start → Writes depth start (.value value) after →
      Blanks after (Mark.comma :: more) → Writes depth more (.members written) rest →
      Writes depth text (.members ((key, value) :: written)) rest

/-- The members of an object behind its opening brace, of which there may be none. -/
inductive Encloses (depth : Nat) : List UInt8 → List (String × Value) → List UInt8 → Prop where
  | none {text rest : List UInt8} : Blanks text (Mark.closeObject :: rest) → Encloses depth text [] rest
  | some {text rest : List UInt8} {written : List (String × Value)} : Writes depth text (.members written) rest →
      Encloses depth text written rest

theorem Encloses.writes {depth : Nat} {text rest : List UInt8} {written members : List (String × Value)}
    (h : Encloses depth text written rest) (hcollected : Collected written members) :
    Writes (depth + 1) (Mark.openObject :: text) (.value (.object members)) rest := by
  cases h with
  | none hclose =>
    cases members with
    | nil => exact .emptyObject hclose
    | cons member members =>
      have hlookup := hcollected.lookup member.1
      rw [List.lookup_cons_self] at hlookup
      cases hlookup
  | some hwrites => exact .object hwrites hcollected

/-- The whole text writes the value, with at most `depth` arrays and objects nested in the text. -/
def Denotes (depth : Nat) (text : List UInt8) (value : Value) : Prop :=
  ∃ start after, Blanks text start ∧ Writes depth start (.value value) after ∧ Blanks after []

/-! ### Lengths

Whatever is written takes at least one byte, except that there may be no blanks. -/

theorem Blanks.length_le {text rest : List UInt8} (h : Blanks text rest) : rest.length ≤ text.length := by
  induction h with
  | none => exact Nat.le_refl _
  | more _ _ ih => exact Nat.le_succ_of_le ih

theorem FourDigits.length_lt {text rest : List UInt8} {n : Nat} (h : FourDigits text n rest) :
    rest.length < text.length := by
  cases h
  simp only [List.length_cons]
  omega

theorem Escape.length_lt {text rest : List UInt8} {c : Char} (h : Escape text c rest) :
    rest.length < text.length := by
  cases h with
  | letter _ => exact Nat.lt_succ_self _
  | number hdigits _ => exact Nat.lt_succ_of_lt hdigits.length_lt
  | pair hhigh _ _ hlow _ _ =>
    have hfirst := hhigh.length_lt
    have hsecond := hlow.length_lt
    simp only [List.length_cons] at hfirst ⊢
    omega

theorem Spells.length_lt {text content rest : List UInt8} (h : Spells text content rest) :
    rest.length < text.length := by
  induction h with
  | close => exact Nat.lt_succ_self _
  | plain _ _ ih => exact Nat.lt_succ_of_lt ih
  | escape hescape _ ih => exact Nat.lt_succ_of_lt (Nat.lt_trans ih hescape.length_lt)

theorem Digits.length_lt {text rest : List UInt8} {digits : List Nat} (h : Digits text digits rest) :
    rest.length < text.length := by
  induction h with
  | last _ => exact Nat.lt_succ_self _
  | more _ _ ih => exact Nat.lt_succ_of_lt ih

theorem Whole.length_lt {text rest : List UInt8} {digits : List Nat} (h : Whole text digits rest) :
    rest.length < text.length := by
  cases h with
  | zero => exact Nat.lt_succ_self _
  | digits _ hdigits => exact hdigits.length_lt

theorem Fraction.length_le {text rest : List UInt8} {digits : List Nat} (h : Fraction text digits rest) :
    rest.length ≤ text.length := by
  cases h with
  | none => exact Nat.le_refl _
  | some hdigits => exact Nat.le_succ_of_le (Nat.le_of_lt hdigits.length_lt)

theorem Sign.length_le {text rest : List UInt8} {negative : Bool} (h : Sign text negative rest) :
    rest.length ≤ text.length := by
  cases h with
  | none => exact Nat.le_refl _
  | plus => exact Nat.le_succ _
  | minus => exact Nat.le_succ _

theorem Exponent.length_le {text rest : List UInt8} {exponent : Option (Bool × List Nat)}
    (h : Exponent text exponent rest) : rest.length ≤ text.length := by
  cases h with
  | none => exact Nat.le_refl _
  | some _ hsign hdigits =>
    exact Nat.le_succ_of_le (Nat.le_trans (Nat.le_of_lt hdigits.length_lt) hsign.length_le)

theorem Magnitude.length_lt {negative : Bool} {text rest : List UInt8} {literal : Literal}
    (h : Magnitude negative text literal rest) : rest.length < text.length := by
  cases h with
  | mk hwhole hfraction hexponent =>
    exact Nat.lt_of_le_of_lt (Nat.le_trans hexponent.length_le hfraction.length_le) hwhole.length_lt

theorem Numeral.length_lt {text rest : List UInt8} {literal : Literal} (h : Numeral text literal rest) :
    rest.length < text.length := by
  cases h with
  | positive h => exact h.length_lt
  | negative h => exact Nat.lt_succ_of_lt h.length_lt

theorem Scalar.length_lt {text rest : List UInt8} {value : Value} (h : Scalar text value rest) :
    rest.length < text.length := by
  cases h with
  | null => exact Nat.lt_succ_of_le (Nat.le_add_right _ 3)
  | true => exact Nat.lt_succ_of_le (Nat.le_add_right _ 3)
  | false => exact Nat.lt_succ_of_le (Nat.le_add_right _ 4)
  | string hspells => exact Nat.lt_succ_of_lt hspells.length_lt
  | number hnumeral _ => exact hnumeral.length_lt

theorem Keyed.length_lt {text start : List UInt8} {key : String} (h : Keyed text key start) :
    start.length < text.length := by
  cases h with
  | mk hblanks hspells hcolon hstart =>
    have hfirst := hblanks.length_le
    have hkey := hspells.length_lt
    have hsecond := hcolon.length_le
    have hthird := hstart.length_le
    simp only [List.length_cons] at hfirst hsecond
    omega

theorem Writes.length_lt {depth : Nat} {text rest : List UInt8} {part : Part} (h : Writes depth text part rest) :
    rest.length < text.length := by
  induction h with
  | scalar hscalar => exact hscalar.length_lt
  | emptyArray hclose => exact Nat.lt_succ_of_lt hclose.length_le
  | array _ ih => exact Nat.lt_succ_of_lt ih
  | lastItem hstart _ hclose ih =>
    exact Nat.lt_of_lt_of_le (Nat.lt_trans hclose.length_le ih) hstart.length_le
  | item hstart _ hcomma _ ihvalue ihrest =>
    exact Nat.lt_of_lt_of_le (Nat.lt_trans (Nat.lt_trans ihrest hcomma.length_le) ihvalue) hstart.length_le
  | emptyObject hclose => exact Nat.lt_succ_of_lt hclose.length_le
  | object _ _ ih => exact Nat.lt_succ_of_lt ih
  | lastMember hkeyed _ hclose ih => exact Nat.lt_trans (Nat.lt_trans hclose.length_le ih) hkeyed.length_lt
  | member hkeyed _ hcomma _ ihvalue ihrest =>
    exact Nat.lt_trans (Nat.lt_trans (Nat.lt_trans ihrest hcomma.length_le) ihvalue) hkeyed.length_lt

end RecordGate.Json
