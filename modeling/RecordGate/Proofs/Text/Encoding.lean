import RecordGate.Text.Utf8

/-! # Texts and their encodings

`bytes` encodes every text, and each of the two readers takes an encoding back to its text: the strict one
accepts encodings and nothing else (`decode?_eq_some_iff`), and the lossy one replaces nothing in them
(`decodeLossy_bytes`). -/

namespace RecordGate.Text

/-! ### Encoding -/

theorem bytes_ofList (cs : List Char) : bytes (String.ofList cs) = cs.flatMap String.utf8EncodeChar := by
  unfold bytes
  rw [String.toByteArray_ofList, List.utf8Encode]
  simp

theorem bytes_eq_flatMap (text : String) : bytes text = text.toList.flatMap String.utf8EncodeChar := by
  rw [← bytes_ofList, String.ofList_toList]

theorem bytes_append (s t : String) : bytes (s ++ t) = bytes s ++ bytes t := by
  rw [bytes_eq_flatMap, bytes_eq_flatMap, bytes_eq_flatMap, String.toList_append, List.flatMap_append]

theorem utf8EncodeChar_ascii {c : Char} (h : c.toNat < 0x80) :
    String.utf8EncodeChar c = [UInt8.ofNat c.toNat] := by
  have hvalue : c.val.toNat ≤ 0x7F := Nat.le_of_lt_succ h
  simp only [String.utf8EncodeChar, hvalue, if_true]
  rfl

/-- Every byte of a character above 127 is above 127 itself. -/
theorem le_of_mem_utf8EncodeChar {c : Char} (h : 0x80 ≤ c.toNat) {b : UInt8}
    (hb : b ∈ String.utf8EncodeChar c) : 0x80 ≤ b.toNat := by
  have hvalue : ¬c.val.toNat ≤ 0x7F := Nat.not_le.mpr h
  simp only [String.utf8EncodeChar, if_neg hvalue] at hb
  split at hb
  · simp only [List.mem_cons, List.not_mem_nil, or_false] at hb
    rcases hb with rfl | rfl <;> rw [UInt8.toNat_ofNat'] <;> omega
  · split at hb
    · simp only [List.mem_cons, List.not_mem_nil, or_false] at hb
      rcases hb with rfl | rfl | rfl <;> rw [UInt8.toNat_ofNat'] <;> omega
    · simp only [List.mem_cons, List.not_mem_nil, or_false] at hb
      rcases hb with rfl | rfl | rfl | rfl <;> rw [UInt8.toNat_ofNat'] <;> omega

/-- Characters below 128 are their own encodings. -/
theorem bytes_ofList_ascii {cs : List Char} (h : ∀ c ∈ cs, c.toNat < 0x80) :
    bytes (String.ofList cs) = cs.map fun c => UInt8.ofNat c.toNat := by
  rw [bytes_ofList]
  induction cs with
  | nil => rfl
  | cons c cs ih =>
    rw [List.flatMap_cons, utf8EncodeChar_ascii (h c List.mem_cons_self),
      ih fun c hc => h c (List.mem_cons_of_mem _ hc)]
    rfl

/-! ### The strict reader -/

theorem decode?_bytes (text : String) : decode? (bytes text) = some text := by
  have hbytes : (⟨(bytes text).toArray⟩ : ByteArray) = text.toByteArray := rfl
  unfold decode? String.fromUTF8?
  rw [hbytes, dif_pos text.isValidUTF8]
  rfl

theorem bytes_of_decode? {bs : List UInt8} {text : String} (h : decode? bs = some text) : bytes text = bs := by
  unfold decode? String.fromUTF8? at h
  split at h
  · cases h
    rfl
  · cases h

/-- The strict reader accepts the encodings of texts and nothing else. -/
theorem decode?_eq_some_iff {bs : List UInt8} {text : String} : decode? bs = some text ↔ bytes text = bs :=
  ⟨bytes_of_decode?, fun h => h ▸ decode?_bytes text⟩

theorem bytes_injective {s t : String} (h : bytes s = bytes t) : s = t :=
  Option.some.inj ((decode?_bytes s).symm.trans (h ▸ decode?_bytes t))

theorem decode?_eq_none_iff {bs : List UInt8} : decode? bs = none ↔ ∀ text, bytes text ≠ bs := by
  rw [Option.eq_none_iff_forall_ne_some]
  exact forall_congr' fun text => not_congr decode?_eq_some_iff

/-! ### The lossy reader -/

/-- What follows a character does not change how it is read. -/
theorem firstChar?_append (c : Char) (rest : List UInt8) :
    firstChar? (String.utf8EncodeChar c ++ rest) = some c := by
  have hsize : c.utf8Size ≤ 4 := Char.utf8Size_le_four c
  have hlength : (String.utf8EncodeChar c).length = c.utf8Size := String.length_utf8EncodeChar c
  unfold firstChar?
  rw [List.take_append, List.take_of_length_le (by omega)]
  have happend : (⟨(String.utf8EncodeChar c ++ rest.take (4 - (String.utf8EncodeChar c).length)).toArray⟩ :
      ByteArray) = (String.utf8EncodeChar c).toByteArray ++
        (rest.take (4 - (String.utf8EncodeChar c).length)).toByteArray := by
    rw [← List.toByteArray_append]
    ext1
    simp
  rw [happend]
  exact ByteArray.utf8DecodeChar?_utf8EncodeChar_append

theorem lossyChars_append (c : Char) (rest : List UInt8) :
    lossyChars (String.utf8EncodeChar c ++ rest) = c :: lossyChars rest := by
  have hlength : (String.utf8EncodeChar c).length = c.utf8Size := String.length_utf8EncodeChar c
  have hfirst := firstChar?_append c rest
  cases hbytes : String.utf8EncodeChar c with
  | nil => exact absurd hbytes String.utf8EncodeChar_ne_nil
  | cons b tail =>
    rw [hbytes] at hfirst hlength
    rw [List.cons_append] at hfirst ⊢
    have htail : c.utf8Size - 1 = tail.length := by rw [← hlength]; rfl
    rw [lossyChars, hfirst]
    show c :: lossyChars ((tail ++ rest).drop (c.utf8Size - 1)) = c :: lossyChars rest
    rw [htail, List.drop_left]

/-- No character of a text is replaced. -/
theorem decodeLossy_bytes (text : String) : decodeLossy (bytes text) = text := by
  have hchars : ∀ cs : List Char, lossyChars (cs.flatMap String.utf8EncodeChar) = cs := by
    intro cs
    induction cs with
    | nil => rw [List.flatMap_nil, lossyChars]
    | cons c cs ih => rw [List.flatMap_cons, lossyChars_append, ih]
  rw [decodeLossy, bytes_eq_flatMap, hchars, String.ofList_toList]

end RecordGate.Text
