import RecordGate.Double.Basic

/-! # JSON values

A value is null, a flag, a number, a text, a list of values or a list of members. Numbers are integers
where the text of the number allows it and doubles otherwise. Members keep the order they are written in;
a value that was read has its members in the order of their keys, each key once (`Ordered`). -/

namespace RecordGate.Json

/-- A JSON value. -/
inductive Value where
  | null
  | bool (flag : Bool)
  | int (number : Int)
  | double (number : Double)
  | string (text : String)
  | array (items : List Value)
  | object (members : List (String × Value))

instance : Inhabited Value := ⟨.null⟩

/-- The integers a number may stand for: those that fit 64 bits, with a sign or without. -/
def IntegerInRange (i : Int) : Prop :=
  -0x8000000000000000 ≤ i ∧ i < 0x10000000000000000

instance (i : Int) : Decidable (IntegerInRange i) :=
  inferInstanceAs (Decidable (_ ∧ _))

/-- Adds a member, in the order of keys; a member of the same key is replaced. -/
def insertMember (key : String) (value : Value) : List (String × Value) → List (String × Value)
  | [] => [(key, value)]
  | (k, v) :: rest =>
    if key < k then (key, value) :: (k, v) :: rest
    else if key = k then (key, value) :: rest
    else (k, v) :: insertMember key value rest

namespace Value

/-- An array or an object. -/
def isComposite : Value → Bool
  | .array _ | .object _ => true
  | _ => false

/-- The value of a member. -/
def member? (value : Value) (key : String) : Option Value :=
  match value with
  | .object members => members.lookup key
  | _ => none

mutual
/-- How deep arrays and objects are nested in a value. -/
def nesting : Value → Nat
  | .array items => nestingOfItems items + 1
  | .object members => nestingOfMembers members + 1
  | _ => 0

/-- The nesting of the deepest item. -/
def nestingOfItems : List Value → Nat
  | [] => 0
  | item :: rest => max item.nesting (nestingOfItems rest)

/-- The nesting of the deepest member. -/
def nestingOfMembers : List (String × Value) → Nat
  | [] => 0
  | (_, value) :: rest => max value.nesting (nestingOfMembers rest)
end

mutual
/-- Every object in the value has its members in strictly increasing order of keys. -/
def Ordered : Value → Prop
  | .array items => OrderedItems items
  | .object members => (members.map Prod.fst).Pairwise (· < ·) ∧ OrderedMembers members
  | _ => True

/-- Every item is ordered. -/
def OrderedItems : List Value → Prop
  | [] => True
  | item :: rest => item.Ordered ∧ OrderedItems rest

/-- The value of every member is ordered. -/
def OrderedMembers : List (String × Value) → Prop
  | [] => True
  | (_, value) :: rest => value.Ordered ∧ OrderedMembers rest
end

mutual
/-- Every number in the value is an integer in range. -/
def Integral : Value → Prop
  | .int i => IntegerInRange i
  | .double _ => False
  | .array items => IntegralItems items
  | .object members => IntegralMembers members
  | _ => True

/-- Every item is integral. -/
def IntegralItems : List Value → Prop
  | [] => True
  | item :: rest => item.Integral ∧ IntegralItems rest

/-- The value of every member is integral. -/
def IntegralMembers : List (String × Value) → Prop
  | [] => True
  | (_, value) :: rest => value.Integral ∧ IntegralMembers rest
end

end RecordGate.Json.Value
