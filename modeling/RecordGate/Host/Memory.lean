/-! # Linear memory

The memory of a module is a number of pages of 64 KiB. It grows by whole pages of zeros and never shrinks.
A range given by two signed numbers is checked before anything is read or written through it. -/

namespace RecordGate.Host

/-- Bytes in a row: how many there are, and each of them by its address. Only addresses below the size matter. -/
structure Block where
  size : Nat
  byte : Nat → UInt8

/-- The bytes from an address on. -/
def Block.read (block : Block) (start length : Nat) : List UInt8 :=
  (List.range length).map fun i => block.byte (start + i)

/-- The bytes of a page. -/
def pageSize : Nat := 65536

/-- A linear memory: a block of whole pages. -/
structure Memory extends Block where
  pages : Nat
  size_eq : size = pages * pageSize

namespace Memory

/-- A memory of zeros. -/
def zeros (pages : Nat) : Memory where
  size := pages * pageSize
  byte _ := 0
  pages := pages
  size_eq := rfl

/-- Puts bytes, given by position, at an address. -/
def put (memory : Memory) (start length : Nat) (content : Nat → UInt8) : Memory :=
  { memory with
    byte := fun a => if start ≤ a ∧ a < start + length then content (a - start) else memory.byte a }

/-- Writes bytes at an address. -/
def write (memory : Memory) (start : Nat) (bytes : List UInt8) : Memory :=
  let content := bytes.toArray
  memory.put start bytes.length fun i => content[i]?.getD 0

/-- So many bytes from an address on lie inside the memory, below `2 ^ 31`. -/
structure Spans (memory : Memory) (address length : Nat) : Prop where
  inside : address + length ≤ memory.size
  below : address + length < 0x80000000

/-- The bytes lie at an address of the memory, below `2 ^ 31`. -/
structure Holds (memory : Memory) (address : Nat) (bytes : List UInt8) : Prop where
  spans : memory.Spans address bytes.length
  bytes : memory.read address bytes.length = bytes

/-- Adds pages of zeros. -/
def grow (memory : Memory) (pages : Nat) : Memory where
  size := (memory.pages + pages) * pageSize
  byte a := if a < memory.size then memory.byte a else 0
  pages := memory.pages + pages
  size_eq := rfl

end Memory

/-- What is wrong with a range. -/
inductive RangeFault where
  | negativeLength
  | negativePointer
  | outOfBounds
  deriving DecidableEq

/-- A range of addresses. -/
structure Range where
  start : Nat
  length : Nat
  deriving DecidableEq

/-- The first address after a range. -/
def Range.stop (range : Range) : Nat :=
  range.start + range.length

/-- The range of a length and a pointer in a block of a given size. -/
def Range.check (size : Nat) (length pointer : Int32) : Except RangeFault Range :=
  if length < 0 then .error .negativeLength
  else if pointer < 0 then .error .negativePointer
  else
    let range : Range := ⟨pointer.toInt.toNat, length.toInt.toNat⟩
    if size < range.stop then .error .outOfBounds else .ok range

/-- The bytes of a range. -/
def Block.slice (block : Block) (range : Range) : List UInt8 :=
  block.read range.start range.length

end RecordGate.Host
