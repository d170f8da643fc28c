import RecordGate.Toml.Key
import RecordGate.Toml.Value

/-! # Tables

The entries of a document are put into tables one after another. A table remembers where it came from,
because that decides what may still be added to it: a table with a header of its own is complete, a table
that was only on the way of another header may still get its own, and a table on the way of a dotted key
may be extended by dotted keys. A key never comes twice. -/

namespace RecordGate.Toml

/-- Where a table came from. -/
inductive Origin where
  /-- It has a header, is an element of a list of tables, or is the outermost table. -/
  | header
  /-- It is on the way of the header of another table. -/
  | path
  /-- It is on the way of a dotted key. -/
  | dotted
  deriving DecidableEq

/-- What a key of a table holds while a document is read. -/
inductive Item where
  | value (value : Value)
  | table (origin : Origin) (items : List (String × Item))
  /-- A list of tables with a header each. -/
  | tables (elements : List (List (String × Item)))

/-- Items by distinct keys, in the order in which they were entered. -/
abbrev Items := List (String × Item)

/-- A key with its value, as written on one line or inside an inline table. -/
structure Pair where
  key : KeyPath
  value : Value

namespace Items

/-- The items with another one under a key that is there. -/
def replace (items : Items) (key : String) (item : Item) : Items :=
  items.map fun (k, old) => if k = key then (k, item) else (k, old)

/-- Updates the table at the end of a path; tables that are missing on the way are made, with the given
    origin. In a list of tables the way leads through the last one. A dotted key does not lead through a
    table that has a header. -/
def updateAt (made : Origin) (update : Origin → Items → Option Items) :
    List String → Origin → Items → Option Items
  | [], origin, items => update origin items
  | key :: path, _, items =>
    match items.lookup key with
    | none => do
      let inner ← updateAt made update path made []
      return items ++ [(key, .table made inner)]
    | some (.value _) => none
    | some (.tables elements) => do
      let last ← elements.getLast?
      let inner ← updateAt made update path .header last
      return replace items key (.tables (elements.dropLast ++ [inner]))
    | some (.table origin inner) =>
      if made = .dotted ∧ origin = .header then none
      else do
        let inner ← updateAt made update path origin inner
        return replace items key (.table origin inner)

/-- Enters a pair. The value of a dotted key goes into a table that dotted keys have made. -/
def insert (items : Items) (pair : Pair) : Option Items :=
  updateAt .dotted (fun origin items =>
    if pair.key.parents ≠ [] ∧ origin ≠ .dotted then none
    else if (items.lookup pair.key.last).isSome then none
    else some (items ++ [(pair.key.last, .value pair.value)])) pair.key.parents .header items

/-- Enters pairs in order. -/
def insertAll (items : Items) (pairs : List Pair) : Option Items :=
  pairs.foldlM insert items

end Items

mutual
/-- The value of an item. -/
def Item.toValue : Item → Value
  | .value value => value
  | .table _ items => .table (valuesOf items)
  | .tables elements => .array (tablesOf elements)

/-- The values of items by their keys. -/
def valuesOf : List (String × Item) → List (String × Value)
  | [] => []
  | (key, item) :: rest => (key, item.toValue) :: valuesOf rest

/-- The elements of a list of tables as values. -/
def tablesOf : List (List (String × Item)) → List Value
  | [] => []
  | items :: rest => .table (valuesOf items) :: tablesOf rest
end

/-- The value of an inline table. -/
def tableOfPairs (pairs : List Pair) : Option Value :=
  (Items.insertAll [] pairs).map fun items => .table (valuesOf items)

/-! ### Sections -/

/-- What a header opens: a table, or another element of a list of tables. -/
inductive Header where
  | table (key : KeyPath)
  | element (key : KeyPath)

/-- A header and the pairs up to the next one. -/
structure Section where
  header : Header
  pairs : List Pair

/-- Enters a section. A table that was only on the way of other headers is completed and becomes the last
    entry of its own table; nothing else may have the key of a new table. -/
def Items.insertSection (root : Items) (part : Section) : Option Items :=
  match part.header with
  | .table key => updateAt .path (fun _ items => do
      let before ← match items.lookup key.last with
        | none => some []
        | some (.table .path inner) => some inner
        | some _ => none
      let inner ← insertAll before part.pairs
      return items.filter (·.1 ≠ key.last) ++ [(key.last, .table .header inner)]) key.parents .header root
  | .element key => updateAt .path (fun _ items => do
      let inner ← insertAll [] part.pairs
      match items.lookup key.last with
      | none => return items ++ [(key.last, .tables [inner])]
      | some (.tables elements) => return items.replace key.last (.tables (elements ++ [inner]))
      | some _ => none) key.parents .header root

/-- A document: pairs, and then sections. -/
structure Document where
  pairs : List Pair
  sections : List Section

/-- The entries of the outermost table of a document. -/
def Document.entries (document : Document) : Option (List (String × Value)) := do
  let root ← Items.insertAll [] document.pairs
  let items ← document.sections.foldlM Items.insertSection root
  return valuesOf items

end RecordGate.Toml
