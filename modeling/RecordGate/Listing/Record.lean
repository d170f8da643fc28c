import RecordGate.Record.Decode

/-! # Listings

The part of a real estate listing that the listing rules look at: its price and its status. -/

namespace RecordGate
open Record

namespace Listing

/-- The status of a listing. The list of statuses belongs to the host; only those that rules refer to have a
    name here, and any other is carried as it is. -/
inductive Status where
  | active
  | pending
  | closed
  | other (text : String)
  deriving DecidableEq

/-- The status that a text names. -/
def Status.ofText (text : String) : Status :=
  if text = "Active" then .active
  else if text = "Pending" then .pending
  else if text = "Closed" then .closed
  else .other text

/-- The text of a status. -/
def Status.text : Status → String
  | .active => "Active"
  | .pending => "Pending"
  | .closed => "Closed"
  | .other text => text

end Listing

/-- A listing. -/
structure Listing where
  price : Double
  status : Listing.Status
  deriving DecidableEq

namespace Listing

/-- A listing with nothing filled in. -/
def blank : Listing :=
  ⟨.zero, .other ""⟩

/-- The field of the price. -/
def priceField : String := "ListPrice"

/-- The field of the status. -/
def statusField : String := "MlsStatus"

/-- How listings are read. -/
def schema : Schema Listing :=
  .ofFields "Listing" blank [
    ⟨priceField, fun text => (readDouble text).map fun (price, rest) =>
      (fun listing => ⟨price, listing.status⟩, rest)⟩,
    ⟨statusField, fun text => (readText text).map fun (status, rest) =>
      (fun listing => ⟨listing.price, .ofText status⟩, rest)⟩]

end RecordGate.Listing
