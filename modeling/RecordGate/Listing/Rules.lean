import RecordGate.Intent
import RecordGate.Listing.Record

/-! # The listing rules

A listing needs a price above zero, and its close price is governed by its status: required and visible for
a closed listing, not applicable for any other. The rules look at the current version alone and restate the
close price every time, since the host may have forgotten what it was told before. -/

namespace RecordGate.Listing

/-- The field of the price at closing. -/
def closePriceField : String := "ClosePrice"

/-- What is said of a price that is not above zero. -/
def priceMessage : String := "List Price must be greater than $0"

/-- The presentation of the close price under a status. -/
def closePriceControl (status : Status) : FieldControl :=
  if status = .closed then .mandatory else .notApplicable

/-- What the rules have to say about a listing. -/
def evaluate (current _previous : Listing) : Intents :=
  let priced :=
    if current.price.isNonPositive then Intents.empty.error priceField priceMessage
    else Intents.empty
  priced.control closePriceField (closePriceControl current.status)

end RecordGate.Listing
