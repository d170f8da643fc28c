import RecordGate.Json.Printer
import RecordGate.Proofs.Double.Shortest
import RecordGate.Proofs.Json.Decimal

/-! # The texts of doubles

A finite double is written as a numeral (`numeral_doubleText`): its digits do not start with a zero, and
wherever the point or the exponent is put, there is a digit on either side of it. -/

namespace RecordGate.Json

/-- Decimal digits, at least one, of which the first is not zero. -/
structure Significant (cs : List Char) : Prop where
  isDigit : ∀ c ∈ cs, c.isDigit
  head : ∃ c rest, cs = c :: rest ∧ c ≠ '0'

/-! ### Digits -/

section
variable {cs : List Char}

theorem bytes_ofList_digits (h : ∀ c ∈ cs, c.isDigit) :
    Text.bytes (String.ofList cs) = cs.map fun c => UInt8.ofNat c.toNat :=
  Text.bytes_ofList_ascii fun c hc => Nat.lt_of_le_of_lt (digit_range (h c hc)).2 (by decide)

theorem digits_ofList (h : ∀ c ∈ cs, c.isDigit) (hsome : cs ≠ []) (rest : List UInt8) :
    ∃ digits, Digits (Text.bytes (String.ofList cs) ++ rest) digits rest := by
  rw [bytes_ofList_digits h]
  refine ⟨_, digits_append (fun b hb => ?_) (mt List.map_eq_nil_iff.mp hsome) rest⟩
  obtain ⟨c, hc, rfl⟩ := List.mem_map.mp hb
  exact isDigit_digit (h c hc)

theorem ne_zero_of_digit {c : Char} (hc : c ≠ '0') (hdigit : c.isDigit) : UInt8.ofNat c.toNat ≠ 0x30 := by
  intro heq
  have hvalue := congrArg UInt8.toNat heq
  rw [toNat_digit hdigit] at hvalue
  exact hc (Char.toNat_inj.mp hvalue)

theorem Significant.ne_nil (h : Significant cs) : cs ≠ [] := by
  obtain ⟨c, rest, rfl, -⟩ := h.head
  exact List.cons_ne_nil c rest

theorem Significant.append (h : Significant cs) {more : List Char} (hmore : ∀ c ∈ more, c.isDigit) :
    Significant (cs ++ more) where
  isDigit c hc := (List.mem_append.mp hc).elim (h.isDigit c) (hmore c)
  head := by
    obtain ⟨c, rest, rfl, hc⟩ := h.head
    exact ⟨c, rest ++ more, rfl, hc⟩

theorem Significant.take (h : Significant cs) {n : Nat} (hn : 0 < n) : Significant (cs.take n) where
  isDigit c hc := h.isDigit c (List.mem_of_mem_take hc)
  head := by
    obtain ⟨c, rest, rfl, hc⟩ := h.head
    exact ⟨c, rest.take (n - 1), List.take_cons hn, hc⟩

theorem Significant.whole (h : Significant cs) (rest : List UInt8) :
    ∃ digits, Whole (Text.bytes (String.ofList cs) ++ rest) digits rest := by
  obtain ⟨digits, hdigits⟩ := digits_ofList h.isDigit h.ne_nil rest
  obtain ⟨c, more, rfl, hc⟩ := h.head
  refine ⟨digits, ?_⟩
  rw [bytes_ofList_digits h.isDigit] at hdigits ⊢
  exact .digits (ne_zero_of_digit hc (h.isDigit c List.mem_cons_self)) hdigits

theorem significant_toString {n : Nat} (hn : 0 < n) : Significant (toString n).toList := by
  have htext : (toString n).toList = Nat.toDigits 10 n := by
    rw [Nat.toString_eq_ofList_toDigits, String.toList_ofList]
  rw [htext]
  refine ⟨fun c hc => isDigit_toDigits hc, ?_⟩
  obtain ⟨b, rest, hdecimal, hb⟩ := head_decimal hn
  obtain ⟨c, more, hdigits, rfl, -⟩ := List.map_eq_cons_iff.mp hdecimal
  refine ⟨c, more, hdigits, ?_⟩
  rintro rfl
  exact hb rfl

theorem isDigit_replicate {n : Nat} : ∀ c ∈ List.replicate n '0', c.isDigit := fun c hc => by
  rw [List.eq_of_mem_replicate hc]
  rfl

end

/-! ### Parts of a numeral -/

section
variable {digits : String}

theorem fraction_ofList {cs : List Char} (h : ∀ c ∈ cs, c.isDigit) (hsome : cs ≠ []) (rest : List UInt8) :
    ∃ digits, Fraction (Mark.point :: (Text.bytes (String.ofList cs) ++ rest)) digits rest := by
  obtain ⟨digits, hdigits⟩ := digits_ofList h hsome rest
  exact ⟨digits, .some hdigits⟩

theorem digits_toString (n : Nat) (rest : List UInt8) :
    ∃ digits, Digits (Text.bytes (toString n) ++ rest) digits rest := by
  have htext : toString n = n.repr := rfl
  rw [htext, bytes_repr]
  exact ⟨_, digits_append (fun b hb => isDigit_decimal hb) (decimal_ne_nil n) rest⟩

/-- Digits, a point, more digits and what is behind them. -/
theorem magnitude_parts (negative : Bool) {whole fraction : List Char} (hwhole : Significant whole)
    (hdigits : ∀ c ∈ fraction, c.isDigit) (hsome : fraction ≠ []) {text rest : List UInt8}
    {exponent : Option (Bool × List Nat)} (hexponent : Exponent text exponent rest) :
    ∃ literal, Magnitude negative
      (Text.bytes (String.ofList whole ++ "." ++ String.ofList fraction) ++ text) literal rest := by
  have hpoint : Text.bytes "." = [Mark.point] := rfl
  obtain ⟨fractionDigits, hfraction⟩ := fraction_ofList hdigits hsome text
  obtain ⟨wholeDigits, hwhole⟩ := hwhole.whole (Mark.point :: (Text.bytes (String.ofList fraction) ++ text))
  rw [Text.bytes_append, Text.bytes_append, hpoint, List.append_assoc, List.append_assoc]
  exact ⟨_, .mk hwhole hfraction hexponent⟩

/-- Digits with a point among them, in front of them or behind them. -/
theorem magnitude_pointed (negative : Bool) (h : Significant digits.toList) (whole : Int) (rest : List UInt8) :
    ∃ literal, Magnitude negative (Text.bytes (Double.pointed digits whole) ++ rest) literal rest := by
  unfold Double.pointed
  dsimp only
  split
  · have hzeros : Text.bytes "0." = [0x30, Mark.point] := rfl
    have hdigits : ∀ c ∈ List.replicate (-whole).toNat '0' ++ digits.toList, c.isDigit := fun c hc =>
      (List.mem_append.mp hc).elim (isDigit_replicate c) (h.isDigit c)
    obtain ⟨fraction, hfraction⟩ := fraction_ofList hdigits (List.append_ne_nil_of_right_ne_nil _ h.ne_nil) rest
    rw [String.ofList_append, String.ofList_toList, Text.bytes_append] at hfraction
    rw [Text.bytes_append, Text.bytes_append, hzeros]
    exact ⟨_, .mk .zero hfraction .none⟩
  split
  · have hzero : ".0" = "." ++ String.ofList (List.replicate 1 '0') := rfl
    have hmagnitude := magnitude_parts negative
      (h.append (isDigit_replicate (n := (whole - digits.length).toNat))) (isDigit_replicate (n := 1))
      (List.cons_ne_nil _ _) (.none : Exponent rest none rest)
    rwa [String.ofList_append, String.ofList_toList, String.append_assoc, ← hzero] at hmagnitude
  · next hpositive hshort =>
    have hlength := String.length_toList (s := digits)
    have hdrop : digits.toList.drop whole.toNat ≠ [] := by
      rw [ne_eq, List.drop_eq_nil_iff]
      omega
    exact magnitude_parts negative (h.take (by omega)) (fun c hc => h.isDigit c (List.mem_of_mem_drop hc)) hdrop .none

/-- An exponent with its sign. -/
theorem exponent_signed (place : Int) (rest : List UInt8) : ∃ exponent,
    Exponent (Text.bytes ("e" ++ (if place < 0 then "-" else "+") ++ toString place.natAbs) ++ rest)
      (some exponent) rest := by
  have hletter : Text.bytes "e" = [0x65] := rfl
  have hplus : Text.bytes "+" = [Mark.plus] := rfl
  have hminus : Text.bytes "-" = [Mark.minus] := rfl
  obtain ⟨digits, hdigits⟩ := digits_toString place.natAbs rest
  rw [Text.bytes_append, Text.bytes_append, hletter, List.append_assoc]
  split
  · rw [hminus]
    exact ⟨_, .some (.inl rfl) .minus hdigits⟩
  · rw [hplus]
    exact ⟨_, .some (.inl rfl) .plus hdigits⟩

/-- Digits with a point after the first of them, and an exponent. -/
theorem magnitude_withExponent (negative : Bool) (h : Significant digits.toList) (place : Int)
    (rest : List UInt8) :
    ∃ literal, Magnitude negative (Text.bytes (Double.withExponent digits place) ++ rest) literal rest := by
  obtain ⟨exponent, hexponent⟩ := exponent_signed place rest
  obtain ⟨c, more, hdigits, hc⟩ := h.head
  have hfirst : Significant [c] := by
    have htake := h.take Nat.one_pos
    rwa [hdigits] at htake
  unfold Double.withExponent
  rw [hdigits]
  dsimp only
  rw [String.append_assoc, String.append_assoc, Text.bytes_append, List.append_assoc, ← String.append_assoc]
  cases more with
  | nil =>
    obtain ⟨digits', hwhole⟩ := hfirst.whole _
    exact ⟨_, .mk hwhole .none hexponent⟩
  | cons d more =>
    have hpointed : String.ofList (c :: '.' :: d :: more) =
        String.ofList [c] ++ "." ++ String.ofList (d :: more) := by
      rw [← String.toList_inj]
      simp only [String.toList_append, String.toList_ofList]
      rfl
    have hmore : ∀ e ∈ d :: more, e.isDigit := fun e he =>
      h.isDigit e (hdigits ▸ List.mem_cons_of_mem _ he)
    dsimp only
    rw [hpointed]
    exact magnitude_parts negative hfirst hmore (List.cons_ne_nil _ _) hexponent

end

/-! ### Doubles -/

theorem magnitude_magnitudeText {x : Double} (h : x.Finite) (negative : Bool) (rest : List UInt8) :
    ∃ literal, Magnitude negative (Text.bytes (x.magnitudeText doubleLayout) ++ rest) literal rest := by
  have hfinite : x.isInfinite = false := by
    rw [Double.isInfinite, beq_false_of_ne h, Bool.false_and]
  unfold Double.magnitudeText
  rw [hfinite, if_neg Bool.false_ne_true]
  split
  · exact ⟨_, .mk .zero (.some (.last rfl)) .none⟩
  · next hunits =>
    have hdigits := significant_toString (Double.shortest_digits_pos (Nat.pos_of_ne_zero hunits))
    dsimp only
    split
    · exact magnitude_pointed negative hdigits _ rest
    · exact magnitude_withExponent negative hdigits _ rest

/-- A finite double is written as a numeral. -/
theorem numeral_doubleText {x : Double} (h : x.Finite) (rest : List UInt8) :
    ∃ literal, Numeral (Text.bytes (doubleText x) ++ rest) literal rest := by
  have hnumber : x.isNaN = false := by
    rw [Double.isNaN, beq_false_of_ne h, Bool.false_and]
  unfold doubleText Double.text
  rw [if_pos h, hnumber, if_neg Bool.false_ne_true]
  split
  · obtain ⟨literal, hmagnitude⟩ := magnitude_magnitudeText h true rest
    rw [Text.bytes_append]
    exact ⟨literal, .negative hmagnitude⟩
  · obtain ⟨literal, hmagnitude⟩ := magnitude_magnitudeText h false rest
    exact ⟨literal, .positive hmagnitude⟩

end RecordGate.Json
