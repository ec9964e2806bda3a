import Gatekeeper.Proofs.Endpoint.Registry
import Gatekeeper.Proofs.Operation.Instantiation
import Gatekeeper.Proofs.Server.Lookups
import Gatekeeper.Proofs.Settings.Checks

namespace Gatekeeper

variable {σ : Type}

namespace SeededKey

/-- What a key puts into a store: its name, and the key that its text decodes to. -/
def row? (s : SeededKey) : Option (String × Key) := s.decode.toOption.map fun e ↦ (e.1.name, e.2)

end SeededKey

namespace Server

end Server

structure Parts where
  name : String
  address : Net.SocketAddress
  keys : KeyStore
  endpoints : EndpointRegistry

structure Configuration.Yields (c : Configuration) (p : Parts) : Prop where
  named : ∃ text, c.service.operations = some text ∧ p.name = Text.trim text ∧ p.name ≠ ""
  operationsModule : c.service.operationsModule = some p.name
  bound : Server.addressOf c = .ok p.address
  loopback : p.address.host.isLoopback ∨ c.server.allowNonLoopback
  opened (d : Disk) : Server.openStore c d = (.ok (.memory p.keys), d)
  lookup (i : Identity) (k : Key) : p.keys.lookup i = .ok k ↔
    ∃ s ∈ c.store.keys, Text.trim s.identity = i.name ∧ Key.ofBase64 s.key = .ok k
  identities : p.keys.identities.Perm (c.store.keys.map fun s ↦ ⟨Text.trim s.identity⟩)
  registered : EndpointRegistry.ofList c.endpointRecords = .ok p.endpoints
  records : p.endpoints.toList.Perm (c.endpoints.map fun e ↦ ⟨Text.trim e.id, Text.trim e.url⟩)
  sorted : p.endpoints.toList.Pairwise fun a b ↦ Bytes.ofString a.id < Bytes.ofString b.id

namespace Server

variable {c : Configuration}

/-- What can come of a start: it fails for the audit log, for the module or for a handler, and then nothing is
recorded, or the server is there and its start is recorded. -/
inductive Ends (now : Nat) (c : Configuration) (modules : ModuleRegistry σ) (d : Disk) (p : Parts) :
    Except ServerError (Started σ) × Disk → Prop
  | auditLog {path : String} : c.server.audit.enabled → c.server.audit.path = some path →
    d.touchFile? (Text.trim path) = none →
    Ends now c modules d p (.error (.auditLog "cannot open the file"), d)
  | unregistered {audit : AuditSink} {d' : Disk} : openSink c.server.audit d = (.ok audit, d') →
    modules.get? p.name = none →
    Ends now c modules d p (.error (.setup (.unknownModule p.name)), d')
  | handler {audit : AuditSink} {d' : Disk} {m : OperationModule σ} {operation : String}
    {constructor : Constructor σ} {e : HandlerError} : openSink c.server.audit d = (.ok audit, d') →
    modules.get? p.name = some m → m.constructors.get? operation = some constructor →
    constructor c.service.settings = .error e →
    Ends now c modules d p (.error (.setup (.handler operation e.message)), d')
  | started {audit : AuditSink} {d' : Disk} {m : OperationModule σ} {handlers : HandlerTable σ} :
    openSink c.server.audit d = (.ok audit, d') → modules.get? p.name = some m →
    m.instantiate c.service.settings = .ok handlers →
    Ends now c modules d p
      (let dispatcher := { operationsModule := p.name, handlers, endpoints := p.endpoints }
      let recorded := audit.record now dispatcher.startupEvent d'
      (.ok ⟨{ address := p.address, maxBodyBytes := c.server.maxBodyBytes, dispatcher,
              store := .memory p.keys, audit }, recorded.1⟩, recorded.2))

theorem Ends.message {now : Nat} {modules : ModuleRegistry σ} {d d' : Disk} {p : Parts} {e : ServerError}
    (h : Ends now c modules d p (.error e, d')) : ∃ cause, e.message = "init error: " ++ cause := by
  cases h with
  | auditLog => exact ⟨"audit log: cannot open the file", rfl⟩
  | unregistered => exact ⟨(SetupError.unknownModule p.name).message, rfl⟩
  | @handler _ _ _ operation _ fault => exact ⟨(SetupError.handler operation fault.message).message, rfl⟩

end Server

end Gatekeeper
