import RecordGate.Proofs.Host.Transfer

/-! # Reading texts from a block of bytes

A text is read from a range that is given by a length and a pointer, strictly where the bytes have to be a text and
loosely where any bytes will do. Checking the range takes no more room than a word of 32 bits has
(`Range.checkWords_eq`). The two readers refuse the same ranges in the same words, and inside the block they differ
only where the bytes are the encoding of no text (`Block.readers_agree`). -/

namespace RecordGate.Host

variable {w : Nat} {block : Block} {length pointer : Int32}

/-! ### Ranges in machine words -/

/-- The range of a length and a pointer as a machine checks it whose addresses are words of `w` bits. Both numbers are
    extended to words, and the end of the range is their sum. There is no result where the sum overflows. -/
def Range.checkWords (size : BitVec w) (length pointer : Int32) : Option (Except RangeFault Range) :=
  if length < 0 then some (.error .negativeLength)
  else if pointer < 0 then some (.error .negativePointer)
  else
    let start := pointer.toBitVec.signExtend w
    let extent := length.toBitVec.signExtend w
    if start.uaddOverflow extent then none
    else
      let stop := start + extent
      if size < stop then some (.error .outOfBounds) else some (.ok ⟨start.toNat, (stop - start).toNat⟩)

theorem toNat_signExtend {n : Int32} (hw : 32 ≤ w) (hn : 0 ≤ n.toInt) :
    (n.toBitVec.signExtend w).toNat = n.toInt.toNat := by
  have hmsb : n.toBitVec.msb = false := by
    rw [BitVec.msb_eq_toInt]
    exact decide_eq_false (Int.not_lt.mpr hn)
  rw [BitVec.signExtend_eq_setWidth_of_msb_false hmsb, BitVec.toNat_setWidth_of_le hw,
    ← Int.toNat_natCast n.toBitVec.toNat, ← BitVec.toInt_eq_toNat_of_msb hmsb]
  rfl

/-- A length and a pointer have 31 bits each, so that their sum has room in 32. -/
theorem not_uaddOverflow (hw : 32 ≤ w) (hlength : 0 ≤ length.toInt) (hpointer : 0 ≤ pointer.toInt) :
    ¬(pointer.toBitVec.signExtend w).uaddOverflow (length.toBitVec.signExtend w) = true := by
  have hroom := Nat.pow_le_pow_right Nat.two_pos hw
  have hl := length.toInt_lt
  have hp := pointer.toInt_lt
  unfold BitVec.uaddOverflow
  rw [toNat_signExtend hw hlength, toNat_signExtend hw hpointer]
  simp only [decide_eq_true_eq]
  omega

/-- A machine with words of at least 32 bits checks a range without overflow, and as it is checked in numbers of any
    size. -/
theorem Range.checkWords_eq (hw : 32 ≤ w) (size : BitVec w) (length pointer : Int32) :
    checkWords size length pointer = some (check size.toNat length pointer) := by
  unfold checkWords check
  by_cases hlength : length < 0
  · rw [if_pos hlength, if_pos hlength]
  · by_cases hpointer : pointer < 0
    · rw [if_neg hlength, if_neg hlength, if_pos hpointer, if_pos hpointer]
    · rw [if_neg hlength, if_neg hlength, if_neg hpointer, if_neg hpointer]
      rw [Int32.lt_iff_toInt_lt, Int32.toInt_zero, Int.not_lt] at hlength hpointer
      have hroom := not_uaddOverflow hw hlength hpointer
      have hstop := BitVec.toNat_add_of_not_uaddOverflow hroom
      have hextent : pointer.toBitVec.signExtend w + length.toBitVec.signExtend w -
          pointer.toBitVec.signExtend w = length.toBitVec.signExtend w := by
        rw [BitVec.add_comm, BitVec.add_sub_cancel]
      rw [toNat_signExtend hw hlength, toNat_signExtend hw hpointer] at hstop
      dsimp only
      rw [if_neg hroom, hextent, toNat_signExtend hw hlength, toNat_signExtend hw hpointer]
      by_cases hinside : size.toNat < (⟨pointer.toInt.toNat, length.toInt.toNat⟩ : Range).stop
      · rw [if_pos hinside, if_pos (BitVec.lt_def.mpr (hstop ▸ hinside))]
      · rw [if_neg hinside, if_neg (mt BitVec.lt_def.mp (hstop ▸ hinside))]

/-! ### Ranges of a block -/

/-- The bytes of a range that ends inside the block are that part of all its bytes. -/
theorem Block.read_eq_extract (block : Block) {start length : Nat} (hinside : start + length ≤ block.size) :
    block.read start length = (block.read 0 block.size).extract start (start + length) := by
  rw [List.extract_eq_take_drop, Nat.add_sub_cancel_left]
  apply List.ext_getElem
  · simp only [read, List.length_map, List.length_range, List.length_take, List.length_drop]
    omega
  · intro i hi hi'
    simp [read]

theorem Block.InBounds.passed_eq (h : block.InBounds length pointer) :
    block.passed length pointer =
      (block.read 0 block.size).extract pointer.toInt.toNat (pointer.toInt + length.toInt).toNat := by
  have hsize := h.size_nonneg
  have haddress := h.address_nonneg
  have hinside := h.inside
  rw [Int.toNat_add haddress hsize]
  exact block.read_eq_extract (by omega)

theorem Block.inBounds_iff_met (argument : String) :
    block.InBounds length pointer ↔ AllMet (block.rangeRequirements argument length pointer) := by
  refine ⟨fun h => h.met argument, fun h => ?_⟩
  unfold rangeRequirements at h
  simp only [allMet_cons] at h
  exact ⟨h.1, h.2.1, h.2.2.1⟩

/-! ### The two readers -/

theorem Block.range_eq_ok_iff {argument : String} {range : Range} :
    block.range argument length pointer = .ok range ↔
      block.InBounds length pointer ∧ range = ⟨pointer.toInt.toNat, length.toInt.toNat⟩ := by
  rw [inBounds_iff_met argument]
  exact (range_checked block argument length pointer).ok_iff fun ha hb => ha.trans hb.symm

theorem Block.anyText_eq_ok_iff {argument text : String} :
    block.anyText argument length pointer = .ok text ↔
      block.InBounds length pointer ∧ text = Text.decodeLossy (block.passed length pointer) := by
  rw [inBounds_iff_met argument]
  exact (anyText_checked block argument length pointer).ok_iff fun ha hb => ha.trans hb.symm

theorem Block.text_eq_ok_iff {argument text : String} :
    block.text argument length pointer = .ok text ↔
      block.InBounds length pointer ∧ Text.bytes text = block.passed length pointer := by
  have hchecked := text_checked block argument length pointer
  rw [hchecked.ok_iff fun ha hb => Text.bytes_injective (ha.trans hb.symm), inBounds_iff_met argument]
  refine ⟨fun ⟨hall, htext⟩ => ⟨(allMet_append.mp hall).1, htext⟩, fun ⟨hall, htext⟩ => ⟨?_, htext⟩⟩
  exact allMet_append.mpr ⟨hall, List.forall_mem_singleton.mpr ⟨text, htext⟩⟩

/-- Both readers refuse a range that does not lie inside the block, for the same fault. -/
theorem Block.readers_refuse (argument : String) (h : ¬block.InBounds length pointer) :
    ∃ fault, FirstUnmet (block.rangeRequirements argument length pointer) fault ∧
      block.text argument length pointer = .error fault ∧ block.anyText argument length pointer = .error fault := by
  rw [inBounds_iff_met argument] at h
  obtain ⟨fault, hunmet⟩ := exists_firstUnmet h
  exact ⟨fault, hunmet, (text_checked block argument length pointer).error_iff.mpr hunmet.append,
    (anyText_checked block argument length pointer).error_iff.mpr hunmet⟩

/-- The loose reader finds what the strict one finds. -/
theorem Block.anyText_of_text {argument text : String} (h : block.text argument length pointer = .ok text) :
    block.anyText argument length pointer = .ok text := by
  obtain ⟨hin, hbytes⟩ := text_eq_ok_iff.mp h
  rw [anyText_eq_ok_iff, ← hbytes, Text.decodeLossy_bytes]
  exact ⟨hin, rfl⟩

/-- Reading a text from a block of bytes of any size. A range is checked without overflow wherever addresses have at
    least 32 bits, and the range that is accepted is the one from the pointer on, of the given length, inside the
    block. Any other range is refused by both readers for the same fault, and the loose reader refuses nothing else.
    A text that the strict reader finds is what the loose one finds, and its encoding is exactly the bytes of the
    range. Where the strict reader refuses a range inside the block, the bytes are the encoding of no text and the
    loose reader finds something all the same; and a text whose encoding lies in the range is found by both. -/
theorem Block.readers_agree (block : Block) (argument : String) (length pointer : Int32) :
    let slice := (block.read 0 block.size).extract pointer.toInt.toNat (pointer.toInt + length.toInt).toNat
    (∀ w, 32 ≤ w → ∀ size : BitVec w,
      Range.checkWords size length pointer = some (Range.check size.toNat length pointer)) ∧
    (∀ range, block.range argument length pointer = .ok range ↔
      block.InBounds length pointer ∧ range = ⟨pointer.toInt.toNat, length.toInt.toNat⟩) ∧
    (∀ range, block.range argument length pointer = .ok range → block.slice range = slice) ∧
    (¬block.InBounds length pointer →
      ∃ fault, FirstUnmet (block.rangeRequirements argument length pointer) fault ∧
        block.text argument length pointer = .error fault ∧
        block.anyText argument length pointer = .error fault) ∧
    (∀ fault, block.anyText argument length pointer = .error fault → ¬block.InBounds length pointer) ∧
    (∀ text, block.text argument length pointer = .ok text →
      block.anyText argument length pointer = .ok text ∧ Text.bytes text = slice) ∧
    (block.InBounds length pointer → ∀ fault, block.text argument length pointer = .error fault →
      (∀ text, Text.bytes text ≠ slice) ∧ ∃ text, block.anyText argument length pointer = .ok text) ∧
    (block.InBounds length pointer → ∀ text, Text.bytes text = slice →
      block.text argument length pointer = .ok text ∧ block.anyText argument length pointer = .ok text) := by
  intro slice
  have hfound : block.InBounds length pointer → ∀ text, Text.bytes text = slice →
      block.text argument length pointer = .ok text := fun hin text htext =>
    text_eq_ok_iff.mpr ⟨hin, htext.trans hin.passed_eq.symm⟩
  refine ⟨fun w hw size => Range.checkWords_eq hw size length pointer, fun range => range_eq_ok_iff, ?_,
    readers_refuse argument, ?_, ?_, ?_, ?_⟩
  · intro range hrange
    obtain ⟨hin, rfl⟩ := range_eq_ok_iff.mp hrange
    exact hin.passed_eq
  · intro fault hfault hin
    rw [anyText_eq_ok_iff.mpr ⟨hin, rfl⟩] at hfault
    cases hfault
  · intro text htext
    obtain ⟨hin, hbytes⟩ := text_eq_ok_iff.mp htext
    exact ⟨anyText_of_text htext, hbytes.trans hin.passed_eq⟩
  · intro hin fault hfault
    refine ⟨fun text htext => ?_, _, anyText_eq_ok_iff.mpr ⟨hin, rfl⟩⟩
    rw [hfound hin text htext] at hfault
    cases hfault
  · intro hin text htext
    exact ⟨hfound hin text htext, anyText_of_text (hfound hin text htext)⟩

/-- Three bytes: a letter of one byte, and a letter of two. -/
def edgeBlock : Block :=
  ⟨3, fun a => ([0x6F, 0xC3, 0xA9] : List UInt8).getD a 0⟩

/-- The second letter is read up to the end of the block, its second byte alone is no text, there is nothing behind
    it, and the greatest range there is does not overflow a word. -/
theorem Block.readers_agree_edge :
    edgeBlock.text "field" 2 1 = .ok "é" ∧ edgeBlock.anyText "field" 2 1 = .ok "é" ∧
    (∀ text, Text.bytes text ≠ [0xA9]) ∧ (∃ text, edgeBlock.anyText "field" 1 2 = .ok text) ∧
    (∃ fault, edgeBlock.text "field" 2 2 = .error fault ∧ edgeBlock.anyText "field" 2 2 = .error fault) ∧
    Range.checkWords 3#32 2147483647 2147483647 = some (.error .outOfBounds) := by
  have hletter : edgeBlock.InBounds 2 1 := ⟨by decide, by decide, by decide⟩
  have hhalf : edgeBlock.InBounds 1 2 := ⟨by decide, by decide, by decide⟩
  have hbehind : ¬edgeBlock.InBounds 2 2 := fun h => absurd h.inside (by decide)
  have hbytes : edgeBlock.passed 2 1 = [0xC3, 0xA9] := by decide
  have hbyte : edgeBlock.passed 1 2 = [0xA9] := by decide
  have hbroken : edgeBlock.text "field" 1 2 = .error (.notText "field") := rfl
  obtain ⟨-, -, -, -, -, -, -, hfound⟩ := edgeBlock.readers_agree "field" 2 1
  obtain ⟨htext, hanyText⟩ := hfound hletter "é" (by rw [← hletter.passed_eq, hbytes]; rfl)
  obtain ⟨-, -, -, -, -, -, hnone, -⟩ := edgeBlock.readers_agree "field" 1 2
  obtain ⟨hencodes, hfinds⟩ := hnone hhalf _ hbroken
  rw [← hhalf.passed_eq, hbyte] at hencodes
  obtain ⟨-, -, -, hrefused, -⟩ := edgeBlock.readers_agree "field" 2 2
  obtain ⟨fault, -, hfault⟩ := hrefused hbehind
  obtain ⟨hwords, -⟩ := edgeBlock.readers_agree "field" 2147483647 2147483647
  refine ⟨htext, hanyText, hencodes, hfinds, ⟨fault, hfault⟩, ?_⟩
  rw [hwords 32 (Nat.le_refl _) 3#32]
  rfl

end RecordGate.Host
