import Gatekeeper.Operation.Basic

namespace Gatekeeper

structure Counter where
  value : Nat := 0
deriving DecidableEq, Inhabited

namespace Operation.Counter

def moduleName : String := "guardian.operations.counter"

def limitSetting : String := "counter_limit"

def greatest : Nat := 18446744073709551615

def limit? (settings : HandlerSettings) : Except HandlerError (Option Nat) :=
  match settings.lookup limitSetting with
  | none => .ok none
  | some v =>
    match v.natural? with
    | some n => .ok (some n)
    | none => .error (.init s!"{limitSetting} must be a non-negative integer")

/-- The step that the parameters give: one, or a positive integer. -/
def step? (parameters : Parameters) : Option Nat :=
  match parameters.lookup "by" with
  | none => some 1
  | some v => v.natural?.filter (0 < ·)

def valueOf (n : Nat) : Json := .object [("value", .integer n)]

def increment (limit : Option Nat) : Handler Counter := fun parameters c ↦
  match step? parameters with
  | none => (.error (.invalidParameters "by must be a positive integer"), c)
  | some step =>
    let next := c.value + step
    if next ≤ min greatest (limit.getD greatest) then (.value (valueOf next), ⟨next⟩)
    else
      let current := c.value
      (.error (.failed s!"counter at {current} cannot advance by {step}"), c)

def current : Handler Counter := fun _ c ↦ (.value (valueOf c.value), c)

def operationModule : OperationModule Counter :=
  (OperationModule.mk moduleName ∅).withOperation "inc_value" (fun settings ↦ (limit? settings).map increment)
    |>.withOperation "get_value" fun _ ↦ .ok current

end Operation.Counter

namespace ModuleRegistry

def builtin : ModuleRegistry Counter := ofModules [Operation.Basic.operationModule, Operation.Counter.operationModule]

end ModuleRegistry

end Gatekeeper
