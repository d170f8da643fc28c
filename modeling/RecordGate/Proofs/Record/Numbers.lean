import RecordGate.Proofs.Json.Magnitude
import RecordGate.Proofs.Record.Positional

/-! # Numbers in records

A field of doubles reads finite ones only (`finite_of_readDouble`), and a numeral without a value is not read
(`readDouble_of_numeral`). A member with such a numeral is ahead of a reader (`Ahead`) behind members that
are passed over, known or unknown, and the reader does not get past it (`Ahead.not_read`). -/

namespace RecordGate.Record
open Json

variable {ρ : Type}

theorem finite_of_readDouble {text rest : List UInt8} {x : Double} (h : readDouble text = .ok (x, rest)) :
    x.Finite := by
  obtain ⟨⟨number, after⟩, hnumber, heq⟩ := map_eq_ok.mp h
  cases heq
  unfold readNumberOf at hnumber
  split at hnumber
  · cases hnumber
  · split at hnumber
    · obtain ⟨literal, -, hvalue⟩ := numeral_of_readNumber hnumber
      exact Literal.finite_of_value hvalue
    · cases hnumber

theorem readDouble_of_numeral {before start rest : List UInt8} {literal : Literal} {fault : Fault}
    (hbefore : Blanks before start) (h : Numeral start literal rest) (hrest : Ends rest)
    (hvalue : literal.value rest = .error fault) : readDouble before = .error fault := by
  have hread := h.readNumber_eq hrest
  rw [hvalue] at hread
  obtain ⟨b, more, rfl, hb⟩ := h.head
  unfold readDouble readNumberOf
  rw [hbefore.found (startsScalar_numeral hb).blank]
  simp only [if_pos hb, hread]
  rfl

/-- A member of the key is ahead whose value is the numeral. The members before it are passed over, whatever
    their keys are. -/
inductive Ahead (key : String) (literal : Literal) : List UInt8 → Prop where
  | here {text start rest : List UInt8} : Keyed text key start → Numeral start literal rest → Ends rest →
      Ahead key literal text
  | later {text keyText afterKey start after more : List UInt8} {other : String} :
      Blanks text (Mark.quote :: keyText) → Spells keyText (Text.bytes other) afterKey →
      Blanks afterKey (Mark.colon :: start) → skipValue (stepsFor start) start = .ok after →
      Blanks after (Mark.comma :: more) → Ahead key literal more → Ahead key literal text

theorem Ahead.numeral {key : String} {literal : Literal} {text : List UInt8} (h : Ahead key literal text) :
    ∃ start rest, Numeral start literal rest := by
  induction h with
  | here _ hnumeral _ => exact ⟨_, _, hnumeral⟩
  | later _ _ _ _ _ _ ih => exact ih

/-- Behind a value that is read, the next key is only found if the value ends there. -/
theorem ends_of_nextKey {before : List UInt8} {next : Next} (h : nextKey false before = .ok next) : Ends before := by
  cases next with
  | close rest => exact ends_of_mark (close_of_nextKey h) (by decide)
  | entry more =>
    obtain ⟨text, hled, -⟩ := led_of_nextKey h
    cases hled with
    | comma hcomma => exact ends_of_mark hcomma (by decide)

theorem ends_of_readByKey {fields : List (Field ρ)} {steps : Nat} {seen : List String} {record : ρ}
    {before : List UInt8} {result : ρ × List UInt8} (h : readByKey fields steps false seen record before = .ok result) :
    Ends before := by
  cases steps with
  | zero => cases h
  | succ steps =>
    obtain ⟨next, hnext, -⟩ := bind_eq_ok.mp h
    exact ends_of_nextKey hnext

/-- The reader does not get past a member that its field does not read. -/
theorem Ahead.not_read {fields : List (Field ρ)} (hexact : ∀ known ∈ fields, ∃ fits, known.Exact fits)
    {key : String} {field : Field ρ} (hfind : fields.find? (·.key == key) = some field) {literal : Literal}
    (hfails : ∀ {before start rest : List UInt8}, Blanks before start → Numeral start literal rest → Ends rest →
      ∃ fault, field.read before = .error fault)
    {text : List UInt8} (hahead : Ahead key literal text) {steps : Nat} {first : Bool} {seen : List String}
    {record : ρ} {before : List UInt8} (hled : Led first before text) {result : ρ × List UInt8} :
    readByKey fields steps first seen record before ≠ .ok result := by
  induction hahead generalizing steps first seen record before with
  | here hkeyed hnumeral hends =>
    intro h
    obtain ⟨keyText, afterKey, afterColon, hnext, hkey, hcolon, hstart⟩ := hled.keyed hkeyed
    obtain ⟨fault, hfault⟩ := hfails hstart hnumeral hends
    cases steps with
    | zero => cases h
    | succ steps =>
      unfold readByKey at h
      simp only [hnext, hkey, hfind, ok_bind, hcolon, hfault, error_bind] at h
      split at h <;> cases h
  | @later _ _ _ _ _ _ other hquote hspells hcolon hskip hcomma hmore ih =>
    intro h
    cases steps with
    | zero => cases h
    | succ steps =>
      unfold readByKey at h
      simp only [hled.nextKey hquote, readString_eq_ok_iff.mpr hspells, expectColon_of_blanks hcolon, ok_bind] at h
      cases hother : fields.find? (·.key == other) with
      | none =>
        simp only [hother, hskip, ok_bind] at h
        exact ih (.comma hcomma) h
      | some known =>
        simp only [hother] at h
        split at h
        · cases h
        · obtain ⟨⟨change, rest⟩, hread, h⟩ := bind_eq_ok.mp h
          -- what is read is a scalar, which the skipper takes to the same end
          obtain ⟨fits, hknown⟩ := hexact known (List.mem_of_find?_eq_some hother)
          obtain ⟨value, scalar, hstart, hscalar⟩ := hknown.scalar hread
          have hends := ends_of_readByKey h
          have hwrites : Writes 0 value (.value scalar) rest := .scalar hscalar
          cases (skipValue_stepsFor hstart hwrites hends).symm.trans hskip
          exact ih (.comma hcomma) h

end RecordGate.Record
