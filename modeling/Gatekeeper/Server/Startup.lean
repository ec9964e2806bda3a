import Gatekeeper.Database.Connection
import Gatekeeper.Dispatch.Dispatcher
import Gatekeeper.Server.Sink
import Gatekeeper.Settings.Configuration

namespace Gatekeeper

inductive ServedStore where
  | memory (s : KeyStore)
  | database (c : Connection)

namespace ServedStore

def ask (s : ServedStore) : Ask Disk := fun i d ↦
  match s with
  | memory s => (s.lookup i, d)
  | database c => c.lookup d i

def lookup (s : ServedStore) (d : Disk) : Lookup := fun i ↦ (s.ask i d).1

def afterLookup (s : ServedStore) (d : Disk) (i : Identity) : Disk := (s.ask i d).2

def close (s : ServedStore) (d : Disk) : Disk :=
  match s with
  | memory _ => d
  | database c => c.close d

end ServedStore

inductive ServerError where
  | configuration (e : ConfigurationError)
  | endpoint (e : EndpointError)
  | seededKey (e : StoreError)
  | database (e : DatabaseError)
  | breakdown
  | auditLog (cause : String)
  | setup (e : SetupError)
  | transport (cause : String)

namespace ServerError

def message : ServerError → String
  | configuration e => s!"config error: {e.message}"
  | endpoint e => s!"config error: {e.message}"
  | seededKey e => s!"init error: {e.message}"
  | database e => s!"init error: {e.message}"
  | breakdown => "init error: the database engine broke down"
  | auditLog cause => s!"init error: audit log: {cause}"
  | setup e => s!"init error: {e.message}"
  | transport cause => s!"transport error: {cause}"

end ServerError

variable {σ : Type}

structure Server (σ : Type) where
  address : Net.SocketAddress
  maxBodyBytes : Nat
  dispatcher : Dispatcher σ
  store : ServedStore
  audit : AuditSink

namespace Server

def seededStore (keys : List SeededKey) : Except ServerError KeyStore :=
  keys.foldlM
    (fun s seeded ↦
      match seeded.decode with
      | .error v => .error (.configuration (.invalid v))
      | .ok (i, k) =>
        match s.insert i k with
        | .ok s => .ok s
        | .error e => .error (.seededKey e))
    KeyStore.empty

def openStore (c : Configuration) (d : Disk) : Except ServerError ServedStore × Disk :=
  match c.store.kind, c.store.database? with
  | .memory, _ => ((seededStore c.store.keys).map .memory, d)
  | .sqlite, none => (.error (.configuration (.invalid .databaseWithoutPath)), d)
  | .sqlite, some s =>
    match Connection.openDatabase d s with
    | (.opened c, d) => (.ok (.database c), d)
    | (.refused e, d) => (.error (.database e), d)
    | (.breakdown, d) => (.error .breakdown, d)

def openSink (s : AuditSettings) (d : Disk) : Except ServerError AuditSink × Disk :=
  match s.enabled, s.path with
  | false, _ => (.ok .none, d)
  | true, none => (.ok .errors, d)
  | true, some path =>
    match d.touchFile? (Text.trim path) with
    | some (number, d) => (.ok (.file number), d)
    | none => (.error (.auditLog "cannot open the file"), d)

def addressOf (c : Configuration) : Except ServerError Net.SocketAddress :=
  match c.check with
  | .error v => .error (.configuration (.invalid v))
  | .ok () =>
    match c.server.address with
    | .error v => .error (.configuration (.invalid v))
    | .ok a => .ok a

structure Started (σ : Type) where
  server : Server σ
  errors : List String

def startWith (now : Nat) (c : Configuration) (modules : ModuleRegistry σ) (address : Net.SocketAddress)
    (store : ServedStore) (d : Disk) : Except ServerError (Started σ) × Disk :=
  match EndpointRegistry.ofList c.endpointRecords with
  | .error e => (.error (.endpoint e), d)
  | .ok endpoints =>
    match openSink c.server.audit d with
    | (.error e, d) => (.error e, d)
    | (.ok audit, d) =>
      match Dispatcher.setUp c.service endpoints modules with
      | .error e => (.error (.setup e), d)
      | .ok dispatcher =>
        let (errors, d) := audit.record now dispatcher.startupEvent d
        (.ok ⟨{ address, maxBodyBytes := c.server.maxBodyBytes, dispatcher, store, audit }, errors⟩, d)

/-- Starts a server. A start that fails closes the store again. -/
def start (now : Nat) (c : Configuration) (modules : ModuleRegistry σ) (d : Disk) :
    Except ServerError (Started σ) × Disk :=
  match addressOf c with
  | .error e => (.error e, d)
  | .ok address =>
    match openStore c d with
    | (.error e, d) => (.error e, d)
    | (.ok store, d) =>
      match startWith now c modules address store d with
      | (.error e, d) => (.error e, store.close d)
      | (.ok started, d) => (.ok started, d)

end Server

end Gatekeeper
