import RecordGate.Listing.Rules
import RecordGate.Proofs.Boundary.Served
import RecordGate.Proofs.Listing.Decoding

/-! # The verdict on a listing

Over a host that serves two byte strings the listing rules have a verdict that is read off the current
listing: a complaint about a price that is not above zero, the flags of the close price, and a null for the
close price of a listing that is not closed (`verdict`). The rules compare statuses and the verdict compares
their texts, which is the same for every listing that was decoded (`decode_named`). -/

namespace RecordGate.Listing
open Record

/-! ### Messages -/

/-- What the host is told about a listing. -/
def verdict (listing : Listing) : List Message :=
  (if listing.price.isNonPositive then [.error "ListPrice" "List Price must be greater than $0"] else []) ++
    if listing.status.text = "Closed" then [.setRequired "ClosePrice" 1, .setDisplay "ClosePrice" 1]
    else [.setRequired "ClosePrice" 0, .setDisplay "ClosePrice" 0, .set "ClosePrice" (Text.bytes "null")]

/-- The rules complain about the price first and then restate the whole close price. -/
theorem entries_evaluate (current previous : Listing) :
    (evaluate current previous).entries =
      (if current.price.isNonPositive then [.reportError priceField priceMessage] else []) ++
        if current.status = .closed then
          [.setRequired closePriceField true, .setDisplay closePriceField true]
        else [.setRequired closePriceField false, .setDisplay closePriceField false,
          .setValue closePriceField .null] := by
  unfold evaluate closePriceControl
  by_cases hprice : current.price.isNonPositive
  · by_cases hstatus : current.status = .closed
    · rw [if_pos hprice, if_pos hprice, if_pos hstatus, if_pos hstatus]
      rfl
    · rw [if_pos hprice, if_pos hprice, if_neg hstatus, if_neg hstatus]
      rfl
  · by_cases hstatus : current.status = .closed
    · rw [if_neg hprice, if_neg hprice, if_pos hstatus, if_pos hstatus]
      rfl
    · rw [if_neg hprice, if_neg hprice, if_neg hstatus, if_neg hstatus]
      rfl

/-- Replaying what the rules say of a listing gives the verdict. -/
theorem replayed_evaluate {current : Listing} (hnamed : current.status.Named) (previous : Listing) :
    Replayed (evaluate current previous).entries (verdict current)
      (.ok (if current.price.isNonPositive then 1 else 0)) := by
  have hclosed := hnamed.eq_closed_iff
  rw [entries_evaluate]
  unfold verdict
  by_cases hprice : current.price.isNonPositive
  · rw [if_pos hprice, if_pos hprice, if_pos hprice]
    by_cases hstatus : current.status = .closed
    · rw [if_pos hstatus, if_pos (hclosed.mp hstatus)]
      exact .all rfl
    · rw [if_neg hstatus, if_neg (mt hclosed.mpr hstatus)]
      exact .all rfl
  · rw [if_neg hprice, if_neg hprice, if_neg hprice]
    by_cases hstatus : current.status = .closed
    · rw [if_pos hstatus, if_pos (hclosed.mp hstatus)]
      exact .all rfl
    · rw [if_neg hstatus, if_neg (mt hclosed.mpr hstatus)]
      exact .all rfl

/-! ### The whole invocation -/

/-- The listing rules over a host that serves two byte strings, with all its calls. -/
def verify (current previous : List UInt8) : Outcome × List Exchange :=
  let (outcome, s) := invoke ({ current, previous } : Served).boundary.logged schema evaluate ⟨[], ()⟩
  (outcome, s.log)

theorem verify_eq {current previous : List UInt8} (hcurrent : current.length < 0x80000000)
    (hprevious : previous.length < 0x80000000) {messages : List Message} {outcome : Outcome}
    (h : Concluded schema evaluate current previous messages outcome) :
    verify current previous = (outcome, servingCalls .current current ++ servingCalls .previous previous ++
      (messages ++ outcome.closing).map .sent) := by
  unfold verify
  rw [Served.invoke_eq hcurrent hprevious h]

/-- The listing rules over every pair of byte strings. The first of them that is no listing aborts the
    invocation, and the host is told of it and of nothing else. Otherwise the invocation completes with the
    verdict on the current listing, whatever the previous listing is. -/
theorem verify_exact (current previous : List UInt8) (hcurrent : current.length < 0x80000000)
    (hprevious : previous.length < 0x80000000) :
    (∀ error, decode schema .current current = .error error ∨
        (∃ listing, decode schema .current current = .ok listing) ∧
          decode schema .previous previous = .error error →
      verify current previous = (.aborted (.decode error),
        servingCalls .current current ++ servingCalls .previous previous ++
          [.sent (.diagnostic error.message)])) ∧
    (∀ listing earlier, decode schema .current current = .ok listing →
        decode schema .previous previous = .ok earlier →
      verify current previous = (.completed (if listing.price.isNonPositive then 1 else 0),
        servingCalls .current current ++ servingCalls .previous previous ++ (verdict listing).map .sent)) := by
  constructor
  · intro error herror
    have hpair : decodePair schema current previous = .error error := by
      refine decodePair_eq_error_iff.mpr (herror.imp id ?_)
      rintro ⟨⟨listing, hlisting⟩, hprevious⟩
      exact ⟨listing, hlisting, hprevious⟩
    rw [verify_eq hcurrent hprevious (.undecoded hpair)]
    rfl
  · intro listing earlier hlisting hearlier
    have hpair : decodePair schema current previous = .ok ⟨listing, earlier⟩ :=
      decodePair_eq_ok_iff.mpr ⟨hlisting, hearlier⟩
    have hreplayed := replayed_evaluate (decode_named hlisting) earlier
    rw [verify_eq hcurrent hprevious (.completed hpair hreplayed), Outcome.closing, List.append_nil]

/-- A new listing that is priced at nothing and has no status. -/
theorem verify_priced_at_nothing :
    verify (Text.bytes "[0]") [] =
      (.completed 1, [.probe .current 3, .fill .current 3 3, .probe .previous 0,
        .sent (.error "ListPrice" "List Price must be greater than $0"), .sent (.setRequired "ClosePrice" 0),
        .sent (.setDisplay "ClosePrice" 0), .sent (.set "ClosePrice" (Text.bytes "null"))]) := by
  have hlisting : decode schema .current (Text.bytes "[0]") = .ok ⟨.zero, .other ""⟩ := rfl
  have hblank : decode schema .previous [] = .ok blank := rfl
  exact (verify_exact (Text.bytes "[0]") [] (by decide) (by decide)).2 _ _ hlisting hblank

end RecordGate.Listing
