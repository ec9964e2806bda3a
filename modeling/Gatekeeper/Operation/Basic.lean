import Gatekeeper.Operation.Module

namespace Gatekeeper.Operation.Basic

variable {σ : Type}

def moduleName : String := "guardian.operations.basic"

def getStatus : Handler σ := fun _ s ↦ (.value (.object [("status", .string "ok")]), s)

def echo : Handler σ := fun parameters s ↦
  (if parameters.isEmpty then .nothing else .value (.object parameters), s)

def operationModule : OperationModule σ :=
  (OperationModule.mk moduleName ∅).withOperation "get_status" (fun _ ↦ .ok getStatus)
    |>.withOperation "echo" fun _ ↦ .ok echo

end Gatekeeper.Operation.Basic
