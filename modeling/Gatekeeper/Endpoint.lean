import Gatekeeper.Catalog
import Gatekeeper.Request

namespace Gatekeeper

structure Endpoint where
  id : String
  url : String
deriving DecidableEq, Inhabited

inductive EndpointError where
  | duplicate (id : String)
deriving DecidableEq, Repr

def EndpointError.message : EndpointError → String
  | duplicate id => s!"endpoint already registered: {id}"

namespace Endpoint

def shape : Shape := .record [requiredText "endpoint_id", requiredText "url"]

def ofRecord? (v : Json) : Option Endpoint := do
  let id ← (← v.field? "endpoint_id").string?
  let url ← (← v.field? "url").string?
  some { id, url }

def toJson (e : Endpoint) : Json := .object [("endpoint_id", .string e.id), ("url", .string e.url)]

end Endpoint

structure EndpointRegistry where
  records : Catalog Endpoint

namespace EndpointRegistry

def empty : EndpointRegistry := ⟨∅⟩

/-- Registers an endpoint in place. It may fail; what it has done to the registry by then stays done. -/
def enter (e : Endpoint) : ExceptT EndpointError (StateM EndpointRegistry) Unit := do
  let r ← get
  if r.records.contains e.id then throw (.duplicate e.id)
  else set (EndpointRegistry.mk (r.records.insert e.id e))

def register (r : EndpointRegistry) (e : Endpoint) : Except EndpointError EndpointRegistry :=
  match (enter e).run r with
  | (.ok (), r) => .ok r
  | (.error fault, _) => .error fault

def ofList (es : List Endpoint) : Except EndpointError EndpointRegistry :=
  es.foldlM register empty

def get? (r : EndpointRegistry) (id : String) : Option Endpoint := r.records.get? id

def toList (r : EndpointRegistry) : List Endpoint := r.records.values

def size (r : EndpointRegistry) : Nat := r.records.size

end EndpointRegistry

end Gatekeeper
