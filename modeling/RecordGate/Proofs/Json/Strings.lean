import RecordGate.Proofs.Except
import RecordGate.Proofs.Json.Grammar
import RecordGate.Proofs.Text.Encoding

/-! # Reading strings

What a string spells is what is read for it, and nothing else is read (`unescape_eq_ok_iff`,
`readString_eq_ok_iff`). The end that a reader finds is also found where a string is only skipped
(`Spells.skipString`), although a pair of surrogates is then taken for two escapes. -/

namespace RecordGate.Json

/-! ### Escapes -/

theorem FourDigits.readHex {text rest : List UInt8} {n : Nat} (h : FourDigits text n rest) :
    readHex text = .ok (n, rest) := by
  cases h with
  | mk ha hb hc hd => simp only [Json.readHex, ha, hb, hc, hd]

theorem fourDigits_of_readHex {text rest : List UInt8} {n : Nat} (h : readHex text = .ok (n, rest)) :
    FourDigits text n rest := by
  unfold readHex at h
  split at h
  · split at h
    · next ha hb hc hd =>
      cases h
      exact .mk ha hb hc hd
    · cases h
  · cases h

theorem expectPair_self (b : UInt8) (rest : List UInt8) : expectPair b (b :: rest) = .ok rest := by
  simp only [expectPair, if_true]

theorem expectPair_eq_ok {b : UInt8} {text rest : List UInt8} (h : expectPair b text = .ok rest) :
    text = b :: rest := by
  unfold expectPair at h
  split at h
  · cases h
  · split at h
    · next hb =>
      cases h
      rw [hb]
    · cases h

theorem ne_numberLetter {b : UInt8} {c : Char} (h : letterEscape? b = some c) : b ≠ numberLetter := by
  rintro rfl
  cases h

theorem readEscape_numberLetter (text : List UInt8) :
    readEscape (numberLetter :: text) = readNumberEscape text := by
  simp only [readEscape, if_true]

/-- An escape is read as its character. -/
theorem Escape.readEscape {text rest : List UInt8} {c : Char} (h : Escape text c rest) :
    readEscape text = .ok (c, rest) := by
  cases h with
  | letter hletter =>
    unfold Json.readEscape
    simp only [if_neg (ne_numberLetter hletter), hletter]
  | number hdigits hrange =>
    rw [readEscape_numberLetter]
    refine bind_eq_ok.mpr ⟨_, hdigits.readHex, ?_⟩
    simp only
    rw [if_neg (by omega), if_pos (by omega)]
  | pair hfirst hlow hhigh hsecond hlow' hhigh' =>
    rw [readEscape_numberLetter]
    refine bind_eq_ok.mpr ⟨_, hfirst.readHex, ?_⟩
    simp only
    rw [if_neg (by omega), if_neg (by omega)]
    exact bind_eq_ok.mpr ⟨_, expectPair_self _ _, bind_eq_ok.mpr ⟨_, expectPair_self _ _,
      bind_eq_ok.mpr ⟨_, hsecond.readHex, if_pos ⟨hlow', hhigh'⟩⟩⟩⟩

theorem escape_of_readEscape {text rest : List UInt8} {c : Char} (h : readEscape text = .ok (c, rest)) :
    Escape text c rest := by
  unfold readEscape at h
  split at h
  · cases h
  · split at h
    · next hnumber =>
      rw [hnumber]
      obtain ⟨⟨n, after⟩, hfirst, h⟩ := bind_eq_ok.mp h
      have hfirst := fourDigits_of_readHex hfirst
      simp only at h
      split at h
      · cases h
      · next hlow =>
        split at h
        · cases h
          exact .number hfirst (by omega)
        · next hhigh =>
          obtain ⟨afterSlash, hslash, h⟩ := bind_eq_ok.mp h
          obtain ⟨afterLetter, hletter, h⟩ := bind_eq_ok.mp h
          obtain ⟨⟨m, afterSecond⟩, hsecond, h⟩ := bind_eq_ok.mp h
          rw [expectPair_eq_ok hslash, expectPair_eq_ok hletter] at hfirst
          have hsecond := fourDigits_of_readHex hsecond
          simp only at h
          split at h
          · next hrange =>
            simp only [Except.ok.injEq, Prod.mk.injEq] at h
            obtain ⟨rfl, rfl⟩ := h
            exact .pair hfirst (by omega) (by omega) hsecond hrange.1 hrange.2
          · cases h
    · split at h
      · next hletter =>
        cases h
        exact .letter hletter
      · cases h

/-! ### Contents -/

theorem IsPlain.not_control {b : UInt8} (h : IsPlain b) : ¬b < 0x20 := fun hlt =>
  absurd (UInt8.lt_iff_toNat_lt.mp hlt) (Nat.not_lt.mpr h.2.2)

/-- A string is read as what it spells. -/
theorem Spells.unescape {text content rest : List UInt8} (h : Spells text content rest) :
    unescape text = .ok (content, rest) := by
  induction h with
  | close => rw [Json.unescape, if_pos rfl]
  | plain hb _ ih =>
    rw [Json.unescape, if_neg hb.1, if_neg hb.2.1, if_neg hb.not_control, ih]
    rfl
  | escape hescape _ ih =>
    rw [Json.unescape, if_neg (by decide), if_pos rfl]
    split
    · next hfault =>
      rw [hescape.readEscape] at hfault
      cases hfault
    · next hread =>
      rw [hescape.readEscape] at hread
      cases hread
      rw [ih]
      rfl

theorem spells_of_unescape {text content rest : List UInt8} (h : unescape text = .ok (content, rest)) :
    Spells text content rest := by
  fun_induction Json.unescape text generalizing content with
  | case1 => cases h
  | case2 =>
    cases h
    exact .close
  | case3 => cases h
  | case4 _ _ _ hescape _ ih =>
    obtain ⟨⟨more, after⟩, hmore, h⟩ := bind_eq_ok.mp h
    cases h
    exact .escape (escape_of_readEscape hescape) (ih hmore)
  | case5 => cases h
  | case6 b _ hquote hbackslash hcontrol ih =>
    obtain ⟨⟨more, after⟩, hmore, h⟩ := bind_eq_ok.mp h
    cases h
    have hplain : 0x20 ≤ b.toNat := Nat.not_lt.mp fun hlt => hcontrol (UInt8.lt_iff_toNat_lt.mpr hlt)
    exact .plain ⟨hquote, hbackslash, hplain⟩ (ih hmore)

theorem unescape_eq_ok_iff {text content rest : List UInt8} :
    unescape text = .ok (content, rest) ↔ Spells text content rest :=
  ⟨spells_of_unescape, Spells.unescape⟩

/-- A string is read as the text of the bytes that it spells, where they are the bytes of a text. -/
theorem readString_eq_ok_iff {text rest : List UInt8} {s : String} :
    readString text = .ok (s, rest) ↔ Spells text (Text.bytes s) rest := by
  constructor
  · intro h
    obtain ⟨⟨content, after⟩, hcontent, h⟩ := bind_eq_ok.mp h
    simp only at h
    split at h
    · next hdecode =>
      cases h
      rw [Text.bytes_of_decode? hdecode]
      exact unescape_eq_ok_iff.mp hcontent
    · cases h
  · intro h
    refine bind_eq_ok.mpr ⟨_, unescape_eq_ok_iff.mpr h, ?_⟩
    simp only [Text.decode?_bytes]
    rfl

/-! ### Skipping -/

theorem skipString_escape {text after rest : List UInt8} (hescape : skipEscape text = .ok after)
    (h : skipString after = .ok rest) : skipString (Mark.backslash :: text) = .ok rest := by
  rw [skipString, if_neg (by decide), if_pos rfl]
  split
  · next hfault =>
    rw [hescape] at hfault
    cases hfault
  · next hskip =>
    rw [hescape] at hskip
    cases hskip
    exact h

theorem FourDigits.skipEscape {text rest : List UInt8} {n : Nat} (h : FourDigits text n rest) :
    skipEscape (numberLetter :: text) = .ok rest := by
  have hskip : Json.skipEscape (numberLetter :: text) = (Json.readHex text).map Prod.snd := by
    simp only [Json.skipEscape, if_true]
  rw [hskip]
  exact map_eq_ok.mpr ⟨_, h.readHex, rfl⟩

theorem Escape.skipString {text after rest : List UInt8} {c : Char} (h : Escape text c after)
    (hafter : skipString after = .ok rest) : skipString (Mark.backslash :: text) = .ok rest := by
  cases h with
  | letter hletter =>
    refine skipString_escape ?_ hafter
    unfold skipEscape
    simp only [if_neg (ne_numberLetter hletter), hletter]
  | number hdigits _ => exact skipString_escape hdigits.skipEscape hafter
  | pair hfirst _ _ hsecond _ _ =>
    exact skipString_escape hfirst.skipEscape (skipString_escape hsecond.skipEscape hafter)

/-- A string is skipped up to its end, whatever it spells. -/
theorem Spells.skipString {text content rest : List UInt8} (h : Spells text content rest) :
    skipString text = .ok rest := by
  induction h with
  | close => rw [Json.skipString, if_pos rfl]
  | plain hb _ ih => rw [Json.skipString, if_neg hb.1, if_neg hb.2.1, if_neg hb.not_control, ih]
  | escape hescape _ ih => exact hescape.skipString ih

end RecordGate.Json
