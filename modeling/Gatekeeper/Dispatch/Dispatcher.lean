import Gatekeeper.Audit
import Gatekeeper.Capability.Store
import Gatekeeper.Dispatch.Extraction
import Gatekeeper.Endpoint
import Gatekeeper.Operation.Module
import Gatekeeper.Schema
import Gatekeeper.Settings.Service

namespace Gatekeeper

variable {σ τ : Type}

abbrev Lookup := Identity → Except StoreError Key

/-- How the key of an identity is found in a store that may change with being asked. -/
abbrev Ask (τ : Type) := Identity → τ → Except StoreError Key × τ

def Lookup.ask (lookup : Lookup) : Ask Unit := fun i t ↦ (lookup i, t)

abbrev Channel := Key → Envelope → Except ChannelError Json

inductive Response where
  | success (body : Bytes)
  | failure (refusal : Refusal)
deriving DecidableEq

namespace Response

def isSuccess : Response → Bool
  | success _ => true
  | failure _ => false

def body : Response → Bytes
  | success bytes => bytes
  | failure refusal => Bytes.ofString refusal.publicMessage

end Response

structure Trace where
  mismatch : Option Schema.Mismatch := none
  /-- The identity whose key was asked for. -/
  consulted : Option Identity := none
  method : Option String := none
  /-- The handler that was called, and with what. -/
  invoked : Option (String × Parameters) := none

structure Dispatched (σ : Type) where
  response : Response
  trace : Trace
  state : σ

inductive SetupError where
  | missingModule
  | unknownModule (name : String)
  | handler (operation message : String)
deriving DecidableEq, Repr

def SetupError.message : SetupError → String
  | missingModule => "configuration is missing guardian_service.operations"
  | unknownModule name => s!"unknown operations module: {name}"
  | handler operation message => s!"handler {operation} failed to initialize: {message}"

structure Dispatcher (σ : Type) where
  operationsModule : String
  handlers : HandlerTable σ
  endpoints : EndpointRegistry

namespace Dispatcher

def setUp (s : ServiceSettings) (endpoints : EndpointRegistry) (modules : ModuleRegistry σ) :
    Except SetupError (Dispatcher σ) :=
  match s.operationsModule with
  | none => .error .missingModule
  | some name =>
    match modules.get? name with
    | none => .error (.unknownModule name)
    | some m =>
      match m.instantiate s.settings with
      | .error (operation, e) => .error (.handler operation e.message)
      | .ok handlers => .ok { operationsModule := name, handlers, endpoints }

def operationNames (d : Dispatcher σ) : List String := d.handlers.keys

def startupEvent (d : Dispatcher σ) : AuditEvent :=
  .startup
    { operationsModule := d.operationsModule
      operations := d.operationNames
      endpointCount := d.endpoints.size }

def screen (schema : Schema) (ofDocument : Json → Except Refusal α) (document : Json) :
    Except (Refusal × Option Schema.Mismatch) α :=
  match schema.mismatch? document with
  | some v => .error (.invalidJson, some v)
  | none =>
    match ofDocument document with
    | .ok a => .ok a
    | .error refusal => .error (refusal, none)

def requestOf (body : Bytes) : Except (Refusal × Option Schema.Mismatch) Request :=
  match Json.parseBytes body with
  | .error _ => .error (.invalidJson, none)
  | .ok document => screen .request Request.ofDocument document

def plaintextAsking (ask : Ask τ) (channel : Channel) (r : Request) (t : τ) : Except Refusal Json × τ :=
  match ask r.identity t with
  | (.error e, t) => (.error (.unpack e.anonymous), t)
  | (.ok key, t) =>
    match channel key r.envelope with
    | .error e => (.error (.unpack e.message), t)
    | .ok plaintext => (.ok plaintext, t)

def plaintextOf (lookup : Lookup) (channel : Channel) (r : Request) : Except Refusal Json :=
  (plaintextAsking lookup.ask channel r ()).1

def operationOf (plaintext : Json) : Except (Refusal × Option Schema.Mismatch) Operation :=
  screen .operation Operation.ofDocument plaintext

def responseTo : Outcome → Response
  | .value .null => .failure .operationFailed
  | .value v => .success v.renderBytes
  | .nothing => .failure .operationFailed
  | .error e => .failure (.operationException e.message)
  | .breakdown => .failure (.operationException "handler panicked")

def perform (d : Dispatcher σ) (o : Operation) (trace : Trace) (s : σ) : Dispatched σ :=
  let trace := { trace with method := some o.method }
  match d.handlers.get? o.method with
  | none => ⟨.failure (.unknownOperation o.method), trace, s⟩
  | some h =>
    let (outcome, s) := h o.parameters s
    ⟨responseTo outcome, { trace with invoked := some (o.method, o.parameters) }, s⟩

/-- Dispatches a body, with the store as it is and as it is left. -/
def dispatchAsking (d : Dispatcher σ) (ask : Ask τ) (channel : Channel) (body : Bytes) (s : σ) (t : τ) :
    Dispatched σ × τ :=
  match requestOf body with
  | .error (refusal, mismatch) => (⟨.failure refusal, { mismatch }, s⟩, t)
  | .ok r =>
    let trace : Trace := { consulted := some r.identity }
    match plaintextAsking ask channel r t with
    | (.error refusal, t) => (⟨.failure refusal, trace, s⟩, t)
    | (.ok plaintext, t) =>
      match operationOf plaintext with
      | .error (refusal, mismatch) => (⟨.failure refusal, { trace with mismatch }, s⟩, t)
      | .ok o => (d.perform o trace s, t)

def dispatch (d : Dispatcher σ) (lookup : Lookup) (channel : Channel) (body : Bytes) (s : σ) : Dispatched σ :=
  (d.dispatchAsking lookup.ask channel body s ()).1

def eventOf (response : Response) (trace : Trace) (requestBytes : Nat) : RequestEvent where
  success := response.isSuccess
  errorKind := match response with
    | .success _ => none
    | .failure refusal => some refusal.kind
  detail := match response with
    | .success _ => none
    | .failure refusal => refusal.detail?.or (trace.mismatch.map Schema.Mismatch.message)
  method := trace.method
  fingerprint := trace.consulted.map Identity.fingerprint
  requestBytes := requestBytes
  responseBytes := response.body.length

/-- What becomes of a body, and what is to be recorded of it. -/
def handleAsking (d : Dispatcher σ) (ask : Ask τ) (channel : Channel) (body : Bytes) (s : σ) (t : τ) :
    (Dispatched σ × AuditEvent) × τ :=
  let (done, t) := d.dispatchAsking ask channel body s t
  ((done, .request (eventOf done.response done.trace body.length)), t)

def handle (d : Dispatcher σ) (lookup : Lookup) (channel : Channel) (body : Bytes) (s : σ) :
    Dispatched σ × AuditEvent :=
  (d.handleAsking lookup.ask channel body s ()).1

end Dispatcher

end Gatekeeper
