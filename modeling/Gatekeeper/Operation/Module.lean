import Gatekeeper.Catalog
import Gatekeeper.Operation.Handler

namespace Gatekeeper

variable {σ : Type}

structure OperationModule (σ : Type) where
  name : String
  constructors : Catalog (Constructor σ) := ∅

abbrev HandlerTable (σ : Type) := Catalog (Handler σ)

namespace OperationModule

/-- The module with one more operation, which takes the place of an earlier one of its name. -/
def withOperation (m : OperationModule σ) (name : String) (c : Constructor σ) : OperationModule σ :=
  { m with constructors := m.constructors.insert name c }

def operationNames (m : OperationModule σ) : List String := m.constructors.keys

/-- Constructs the handlers in the order of their names, up to the first that fails. -/
def instantiate (m : OperationModule σ) (settings : HandlerSettings) :
    Except (String × HandlerError) (HandlerTable σ) :=
  m.constructors.entries.foldlM
    (fun table (name, c) ↦
      match c settings with
      | .ok h => .ok (table.insert name h)
      | .error e => .error (name, e))
    ∅

end OperationModule

inductive ModuleError where
  | duplicate (name : String)
  | empty (name : String)
deriving DecidableEq, Repr

def ModuleError.message : ModuleError → String
  | duplicate name => s!"operations module already registered: {name}"
  | empty name => s!"operations module has no operations: {name}"

structure ModuleRegistry (σ : Type) where
  modules : Catalog (OperationModule σ)

namespace ModuleRegistry

def empty : ModuleRegistry σ := ⟨∅⟩

def ofModules (ms : List (OperationModule σ)) : ModuleRegistry σ :=
  ⟨.ofList (ms.map fun m ↦ (m.name, m))⟩

def register (r : ModuleRegistry σ) (m : OperationModule σ) : Except ModuleError (ModuleRegistry σ) :=
  if m.constructors.size = 0 then .error (.empty m.name)
  else if r.modules.contains m.name then .error (.duplicate m.name)
  else .ok ⟨r.modules.insert m.name m⟩

def get? (r : ModuleRegistry σ) (name : String) : Option (OperationModule σ) := r.modules.get? name

def moduleNames (r : ModuleRegistry σ) : List String := r.modules.keys

end ModuleRegistry

end Gatekeeper
