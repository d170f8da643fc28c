import RecordGate.Host.Functions

/-! # Module scripts

A validation module as far as the host can tell: what it imports and exports, what is in its memory at the
start, and what it does, step by step. Steps work on eight slots of 32 bits and on linear memory. -/

namespace RecordGate
open Host

namespace Module

/-- Where a step takes a number from. -/
inductive Operand where
  | const (value : Int32)
  | slot (index : Nat)
  deriving DecidableEq

/-- One step of a module. Results go into a slot or nowhere. -/
inductive Step where
  /-- Enters a function, which every function starts with. -/
  | enter
  /-- Calls a host function. -/
  | host (request : HostRequest Operand) (into : Option Nat)
  /-- Calls an import of the module with zeros. -/
  | callImport (module field : String)
  /-- Asks for more pages of memory; the result is the number of pages before. -/
  | grow (pages : Operand) (into : Option Nat)
  /-- Gives the number of pages of memory. -/
  | size (into : Option Nat)
  /-- Stores four bytes. -/
  | store (address value : Operand)
  /-- Stores the lowest byte. -/
  | storeByte (address value : Operand)
  /-- Loads four bytes. -/
  | load (address : Operand) (into : Option Nat)
  /-- Copies a range of memory, which may overlap its target. -/
  | copy (target source length : Operand)
  | add (left right : Operand) (into : Option Nat)
  /-- Divides with the quotient rounded toward zero. -/
  | divide (left right : Operand) (into : Option Nat)
  /-- Does one thing if two numbers are equal, and another if not. -/
  | branch (left right : Operand) (equal unequal : List Step)
  /-- Ends the function. -/
  | finish
  /-- Gives up. -/
  | trap
  /-- Loops without end. -/
  | spin
  /-- Calls itself without end. -/
  | recurse

/-- What a module imports. All numbers of a function are of 32 bits. -/
inductive ImportKind where
  | function (parameters results : Nat)
  | global
  | table
  deriving DecidableEq

/-- An import by the name of its module and its own name. -/
structure Import where
  module : String
  field : String
  kind : ImportKind
  deriving DecidableEq

/-- The pages that no memory may exceed. -/
def mostPages : Nat := 65536

/-- A memory: its pages at the start, the pages it may have, and the name it is exported under. -/
structure MemoryDeclaration where
  pages : Nat
  maximum : Option Nat
  exportName : Option String

/-- What a module exports as its entry. -/
inductive Entry where
  /-- A function without parameters and results, which takes these steps. -/
  | function (steps : List Step)
  /-- A function of another type. -/
  | otherFunction
  /-- Something that is no function. -/
  | noFunction
  /-- Nothing at all. -/
  | missing

end Module

/-- A module. Data lies at offsets without a sign; `otherExports` are exported besides the memory and the
entry, and `start` are the steps of its start function, if it has one. -/
structure Module where
  imports : List Module.Import
  memory : Option Module.MemoryDeclaration
  otherExports : List String
  data : List (UInt32 × List UInt8)
  start : Option (List Module.Step)
  entryName : String
  entry : Module.Entry

end RecordGate
