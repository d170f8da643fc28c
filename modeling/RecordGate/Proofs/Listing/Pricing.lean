import Mathlib.Algebra.Order.Field.Basic
import RecordGate.Proofs.Listing.Verdict
import RecordGate.Proofs.Record.Numbers
import RecordGate.Proofs.Record.Shape

/-! # Prices

The price of a listing that is decoded is finite, whatever its numeral is (`decode_finite`). So it is above zero
or it is not, and the rules complain about exactly those that are not. A price from
`1.797693134862316 * 10 ^ 308` on is an error of the snapshot, wherever it stands (`Priced.refused`); below that
`2 ^ 1024` and what follows it may be read as the greatest finite double (`decode_beyondGreatest`), since the
reader rounds digits and power one by one. The main statement is `prices_checked`. -/

namespace RecordGate

/-! ### Numbers of doubles -/

namespace Double

/-- The number that a finite double is. -/
def number (x : Double) : ℚ :=
  (if x.negative then -(x.units : ℚ) else x.units) / unitsOfOne

/-- A finite double is above zero exactly if its number is. -/
theorem number_pos_iff {x : Double} (h : x.Finite) : 0 < x.number ↔ x.isNonPositive = false := by
  have hone : (0 : ℚ) < unitsOfOne := by exact_mod_cast (by decide +kernel : 0 < unitsOfOne)
  have hnan : x.isNaN = false := by
    rw [isNaN, beq_false_of_ne h, Bool.false_and]
  rw [number, div_pos_iff_of_pos_right hone, isNonPositive, hnan, Bool.not_false, Bool.true_and, Bool.or_eq_false_iff]
  cases hnegative : x.negative with
  | true =>
    have hunits : (0 : ℚ) ≤ x.units := Nat.cast_nonneg _
    simp [hunits]
  | false =>
    simp only [Bool.false_eq_true, if_false, and_true, Nat.cast_pos, Nat.pos_iff_ne_zero, ne_eq, units_eq_zero_iff,
      Bool.not_eq_true]

end Double

/-- The errors among the intents. -/
def Intents.errors (intents : Intents) : List Intent :=
  intents.entries.filter Intent.isError

namespace Listing
open Json Record

/-! ### Prices that are decoded -/

theorem decode_finite {snapshot : Snapshot} {bytes : List UInt8} {listing : Listing}
    (h : decode schema snapshot bytes = .ok listing) : listing.price.Finite := by
  have hblank : blank.price.Finite := by decide
  refine decode_invariant (P := fun listing => listing.price.Finite) hblank (fun text record rest hread => ?_) h
  refine ofFields_read_invariant (P := fun listing => listing.price.Finite) hblank ?_ hread
  intro field hfield text change rest hread record hrecord
  rw [List.mem_cons, List.mem_singleton] at hfield
  rcases hfield with rfl | rfl
  · obtain ⟨⟨price, afterPrice⟩, hprice, hchange⟩ := map_eq_ok.mp hread
    cases hchange
    exact finite_of_readDouble hprice
  · obtain ⟨⟨status, afterStatus⟩, -, hchange⟩ := map_eq_ok.mp hread
    cases hchange
    exact hrecord

/-! ### Prices that are not -/

/-- A price stands in the bytes that is written as the numeral: under its key in an object, or as the first item
    of an array. -/
inductive Priced (literal : Literal) : List UInt8 → Prop where
  | member {bytes text : List UInt8} : Blanks bytes (Mark.openObject :: text) → Ahead priceField literal text →
      Priced literal bytes
  | item {bytes text start rest : List UInt8} : Blanks bytes (Mark.openArray :: text) → Blanks text start →
      Numeral start literal rest → Ends rest → Priced literal bytes

theorem Priced.isDecimal {literal : Literal} {bytes : List UInt8} (h : Priced literal bytes) : literal.IsDecimal := by
  cases h with
  | member _ hahead =>
    obtain ⟨_, _, hnumeral⟩ := hahead.numeral
    exact Literal.isDecimal_of_numeral hnumeral
  | item _ _ hnumeral _ => exact Literal.isDecimal_of_numeral hnumeral

/-- What reads no record fails, and names the snapshot. -/
theorem decode_refused {snapshot : Snapshot} {bytes : List UInt8}
    (h : ∀ listing, decode schema snapshot bytes ≠ .ok listing) :
    ∃ error, decode schema snapshot bytes = .error ⟨snapshot, error⟩ := by
  cases hdecode : decode schema snapshot bytes with
  | ok listing => exact absurd hdecode (h listing)
  | error error =>
    obtain rfl := decode_failed hdecode
    exact ⟨error.error, rfl⟩

/-- A price whose numeral has no value is no price, wherever it stands. -/
theorem Priced.refused {literal : Literal} {bytes : List UInt8} (h : Priced literal bytes)
    (hvalue : ∀ rest, ∃ fault, literal.value rest = .error fault) (snapshot : Snapshot) :
    ∃ error, decode schema snapshot bytes = .error ⟨snapshot, error⟩ := by
  refine decode_refused fun listing hdecode => ?_
  have hfails : ∀ {before start rest : List UInt8}, Blanks before start → Numeral start literal rest → Ends rest →
      ∃ fault, readDouble before = .error fault := by
    intro before start rest hbefore hnumeral hends
    obtain ⟨fault, hfault⟩ := hvalue rest
    exact ⟨fault, readDouble_of_numeral hbefore hnumeral hends hfault⟩
  cases h with
  | member hstart hahead =>
    have hbytes := not_all_isSpace hstart ⟨by decide, by decide, by decide⟩
    obtain ⟨after, hread, -⟩ := (decode_eq_ok_iff hbytes hstart (by decide) (by decide)).mp hdecode
    unfold schema Schema.ofFields at hread
    simp only [hstart.found (show isBlank Mark.openObject = false by decide), if_true] at hread
    refine hahead.not_read (fun known hknown => ?_) rfl (fun hbefore hnumeral hends => ?_) .first hread
    · rw [List.mem_cons, List.mem_singleton] at hknown
      rcases hknown with rfl | rfl
      · exact ⟨_, exact_double priceField fun price (listing : Listing) => Listing.mk price listing.status⟩
      · exact ⟨_, exact_text statusField fun text (listing : Listing) => Listing.mk listing.price (.ofText text)⟩
    · obtain ⟨fault, hfault⟩ := hfails hbefore hnumeral hends
      exact ⟨fault, by simp only [hfault]; rfl⟩
  | item hstart hitem hnumeral hends =>
    have hbytes := not_all_isSpace hstart ⟨by decide, by decide, by decide⟩
    obtain ⟨after, hread, -⟩ := (decode_eq_ok_iff hbytes hstart (by decide) (by decide)).mp hdecode
    obtain ⟨fault, hfault⟩ := hfails .none hnumeral hends
    obtain ⟨b, more, rfl, hb⟩ := hnumeral.head
    have hscalar := startsScalar_numeral hb
    unfold schema at hread
    rw [ofFields_read_openArray hstart, readByPosition,
      Led.first.nextItem hitem hscalar.blank hscalar.closeArray] at hread
    simp only [ok_bind, hfault] at hread
    cases hread

/-! ### A price alone -/

/-- The text of an object that holds a price and nothing else. -/
def priceOnly (numeral : String) : List UInt8 :=
  Text.bytes ("\x7b\"ListPrice\":" ++ numeral ++ "\x7d")

theorem priced_priceOnly {numeral : String} {literal : Literal}
    (h : Literal.scan .endInValue false (Text.bytes numeral ++ [Mark.closeObject]) =
      .ok (literal, [Mark.closeObject])) : Priced literal (priceOnly numeral) := by
  have hopen : Text.bytes "\x7b\"ListPrice\":" =
      Mark.openObject :: (Text.bytes (stringText priceField) ++ [Mark.colon]) := by decide +kernel
  have hclose : Text.bytes "\x7d" = [Mark.closeObject] := rfl
  rw [priceOnly, Text.bytes_append, Text.bytes_append, hopen, hclose, List.append_assoc, List.cons_append,
    List.append_assoc, List.singleton_append]
  exact .member .none (.here (keyed_stringText priceField _) (.positive (magnitude_of_scan h)) (ends_cons (by decide)))

theorem le_absolute {literal : Literal} {m k : ℕ} (hpower : literal.power - literal.fraction.length = k)
    (h : m ≤ Literal.digitsNumber (literal.whole ++ literal.fraction) * Nat.pow 10 k) : (m : ℚ) ≤ literal.absolute := by
  rw [Literal.absolute, hpower, zpow_natCast]
  exact_mod_cast h

/-! ### The rules -/

theorem errors_evaluate (current previous : Listing) : (evaluate current previous).errors =
    if current.price.isNonPositive then [.reportError priceField priceMessage] else [] := by
  rw [Intents.errors, entries_evaluate, List.filter_append]
  split <;> split <;> rfl

/-- The price of every listing that is decoded is finite, and a price that is written as a numeral from
    `1.797693134862316 * 10 ^ 308` on is an error of the snapshot. So of two listings that are decoded the rules
    report no error if the current price is above zero, and otherwise one error of the price. -/
theorem prices_checked :
    (∀ snapshot bytes listing, decode schema snapshot bytes = .ok listing → listing.price.Finite) ∧
    (∀ snapshot bytes literal, Priced literal bytes → literal.whole.length < 0x80000000 →
      (Double.tooGreat : ℚ) ≤ literal.absolute → ∃ error, decode schema snapshot bytes = .error ⟨snapshot, error⟩) ∧
    ∀ currentBytes previousBytes current previous, decode schema .current currentBytes = .ok current →
      decode schema .previous previousBytes = .ok previous →
      ((evaluate current previous).errors = [] ↔ 0 < current.price.number) ∧
      (¬0 < current.price.number → (evaluate current previous).errors = [.reportError priceField priceMessage]) := by
  refine ⟨fun snapshot bytes listing => decode_finite, fun snapshot bytes literal hpriced hlength hgreat => ?_,
    fun currentBytes previousBytes current previous hcurrent _ => ?_⟩
  · refine hpriced.refused (fun rest => ?_) snapshot
    obtain ⟨left, hvalue⟩ := Literal.value_eq_error hpriced.isDecimal hlength hgreat rest
    exact ⟨_, hvalue⟩
  · rw [errors_evaluate, Double.number_pos_iff (decode_finite hcurrent)]
    cases current.price.isNonPositive <;> simp

/-- `1e400` -/
def overflowing : Literal :=
  ⟨false, [1], [], some (false, [4, 0, 0])⟩

theorem prices_checked_overflowing :
    (⟨.ofInt 5, .other ""⟩ : Listing).price.Finite ∧
    (∃ error, decode schema .current (priceOnly "1e400") = .error ⟨.current, error⟩) ∧
    (evaluate blank blank).errors = [.reportError priceField priceMessage] := by
  have hfive : decode schema .current (Text.bytes "[5]") = .ok ⟨.ofInt 5, .other ""⟩ := rfl
  have hblank : ∀ snapshot, decode schema snapshot [] = .ok blank := fun _ => rfl
  have hpriced : Priced overflowing (priceOnly "1e400") := priced_priceOnly rfl
  have hgreat : (Double.tooGreat : ℚ) ≤ overflowing.absolute := le_absolute (k := 400) (by decide) (by decide +kernel)
  have hzero : ¬0 < blank.price.number := by
    rw [Double.number_pos_iff (by decide)]
    decide
  exact ⟨prices_checked.1 _ _ _ hfive, prices_checked.2.1 _ _ _ hpriced (by decide) hgreat,
    (prices_checked.2.2 [] [] blank blank (hblank _) (hblank _)).2 hzero⟩

/-- `1.79769313486231591e308` -/
def beyondGreatest : Literal :=
  ⟨false, [1], [7, 9, 7, 6, 9, 3, 1, 3, 4, 8, 6, 2, 3, 1, 5, 9, 1], some (false, [3, 0, 8])⟩

/-- A price of more than `2 ^ 1024` may still be decoded, to the greatest finite double. -/
theorem decode_beyondGreatest :
    Priced beyondGreatest (priceOnly "1.79769313486231591e308") ∧
    ((1 <<< 1024 : ℕ) : ℚ) < beyondGreatest.absolute ∧
    decode schema .current (priceOnly "1.79769313486231591e308") = .ok ⟨⟨0x7FEFFFFFFFFFFFFF⟩, .other ""⟩ := by
  have hgreat : ((1 <<< 1024 + 1 : ℕ) : ℚ) ≤ beyondGreatest.absolute :=
    le_absolute (k := 291) (by decide) (by decide +kernel)
  exact ⟨priced_priceOnly rfl, lt_of_lt_of_le (by exact_mod_cast Nat.lt_succ_self _) hgreat, by decide +kernel⟩

end Listing
end RecordGate
