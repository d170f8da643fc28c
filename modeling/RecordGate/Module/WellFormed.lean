import RecordGate.Module.Script

/-! # Well-formed modules

A module compiles if its memory is one that can be declared, if nothing works on a memory that is not there,
and if no two of its exports have the same name. -/

namespace RecordGate.Module

/-- The memory starts within its maximum, and the maximum within what memories may have. -/
def MemoryDeclaration.WellFormed (declaration : MemoryDeclaration) : Prop :=
  declaration.pages ≤ declaration.maximum.getD mostPages ∧ declaration.maximum.getD mostPages ≤ mostPages

instance (declaration : MemoryDeclaration) : Decidable declaration.WellFormed :=
  inferInstanceAs (Decidable (_ ∧ _))

mutual
/-- Whether a step works on memory itself. Calls of the host do not, as it looks for the memory on its own. -/
def Step.usesMemory : Step → Bool
  | .grow _ _ | .size _ | .store _ _ | .storeByte _ _ | .load _ _ | .copy _ _ _ => true
  | .branch _ _ equal unequal => anyUsesMemory equal || anyUsesMemory unequal
  | _ => false

/-- Whether one of the steps works on memory itself. -/
def anyUsesMemory : List Step → Bool
  | [] => false
  | step :: rest => step.usesMemory || anyUsesMemory rest
end

/-- The steps of an entry, if it has any. -/
def Entry.steps : Entry → List Step
  | .function steps => steps
  | .otherFunction | .noFunction | .missing => []

/-- The module puts data into its memory or works on it. -/
def needsMemory (module : Module) : Bool :=
  !module.data.isEmpty || anyUsesMemory (module.start.getD []) || anyUsesMemory module.entry.steps

/-- The names of all exports. -/
def exportNames (module : Module) : List String :=
  let entry := match module.entry with
    | .missing => []
    | .function _ | .otherFunction | .noFunction => [module.entryName]
  (module.memory.bind (·.exportName)).toList ++ module.otherExports ++ entry

/-- The module compiles. -/
def WellFormed (module : Module) : Prop :=
  (∀ declaration ∈ module.memory, declaration.WellFormed) ∧
    (module.memory = none → module.needsMemory = false) ∧ module.exportNames.Nodup

instance (module : Module) : Decidable module.WellFormed :=
  inferInstanceAs (Decidable (_ ∧ _ ∧ _))

end RecordGate.Module
