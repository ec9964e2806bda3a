import Gatekeeper.Server.Http
import Gatekeeper.Server.Startup

namespace Gatekeeper.Server

variable {σ τ : Type}

def serviceName : String := "capability-guardian"

def version : String := "0.1.0"

def info (s : Server σ) : Json :=
  .object [("service", .string serviceName), ("version", .string version),
    ("operations_module", .string s.dispatcher.operationsModule),
    ("operations", .array (s.dispatcher.operationNames.map .string)),
    ("endpoints", .array (s.dispatcher.endpoints.toList.map Endpoint.toJson))]

def refuseBody : Http.BodyFault → Http.Response
  | .tooLarge => .plain 413 "request body too large"
  | .unreadable => .plain 400 "failed to read request body"

def frame : Response → Http.Response
  | .success body => .octets body
  | .failure refusal => .plain 400 refusal.publicMessage

structure Reply (σ : Type) where
  response : Http.Response
  state : σ
  disk : Disk
  errors : List String := []

/-- Processes a body with a store that may be more than the disk. -/
def processAsking (s : Server σ) (ask : Ask τ) (diskOf : τ → Disk) (now : Nat) (body : Bytes) (state : σ) (t : τ) :
    Reply σ × τ :=
  let ((done, event), t) := s.dispatcher.handleAsking ask (fun k e ↦ e.unpack k) body state t
  let (errors, disk) := s.audit.record now event (diskOf t)
  ({ response := frame done.response, state := done.state, disk, errors }, t)

def process (s : Server σ) (now : Nat) (body : Bytes) (state : σ) (d : Disk) : Reply σ :=
  (s.processAsking s.store.ask id now body state d).1

/-- Answers a request, where bodies are processed in some way. -/
def answerWith (s : Server σ) (process : Bytes → τ → Disk → Reply τ) (r : Http.Request) (state : τ) (d : Disk) :
    Reply τ :=
  let quiet (response : Http.Response) : Reply τ := { response, state, disk := d }
  if r.path = "/process_capability" then
    if r.method = "POST" then
      match Http.readBody s.maxBodyBytes r.brokenOff r.chunks with
      | .ok body => process body state d
      | .error e => quiet (refuseBody e)
    else quiet (.notAllowed "POST")
  else if r.path = "/info" then
    if r.method = "GET" then quiet (.json s.info.renderBytes)
    else if r.method = "HEAD" then quiet (Http.Response.json s.info.renderBytes).withoutBody
    else quiet (.notAllowed "GET,HEAD")
  else quiet (.notFound r.path)

def answer (s : Server σ) (now : Nat) : Http.Request → σ → Disk → Reply σ := s.answerWith (s.process now)

end Gatekeeper.Server
