import RecordGate.Intent
import RecordGate.Record.Decode

/-! # Small records

Two record types with one or two plain fields, and rules for the quantity of an item. -/

namespace RecordGate.Record

/-- An amount and a status. -/
structure Sample where
  amount : Double
  status : String
  deriving DecidableEq

/-- How samples are read. -/
def Sample.schema : Schema Sample :=
  .ofFields "Sample" ⟨.zero, ""⟩ [
    ⟨"Amount", fun text => (readDouble text).map fun (amount, rest) =>
      (fun sample => ⟨amount, sample.status⟩, rest)⟩,
    ⟨"Status", fun text => (readText text).map fun (status, rest) =>
      (fun sample => ⟨sample.amount, status⟩, rest)⟩]

/-- A quantity, a whole number. -/
structure Item where
  quantity : Int
  deriving DecidableEq

/-- How items are read. -/
def Item.schema : Schema Item :=
  .ofFields "Item" ⟨0⟩ [
    ⟨"Quantity", fun text => (readInteger text).map fun (quantity, rest) => (fun _ => ⟨quantity⟩, rest)⟩]

/-- What the quantity rules have to say: a quantity is not negative, and a change of it is marked. -/
def Item.evaluate (current previous : Item) : Intents :=
  let checked :=
    if current.quantity < 0 then Intents.empty.error "Quantity" "Quantity cannot be negative"
    else Intents.empty
  if current.quantity = previous.quantity then checked else checked.set "Changed" (.bool true)

end RecordGate.Record
