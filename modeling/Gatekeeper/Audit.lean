import Gatekeeper.Json.Printer

namespace Gatekeeper

structure RequestEvent where
  success : Bool
  errorKind : Option String
  detail : Option String
  method : Option String
  fingerprint : Option String
  requestBytes : Nat
  responseBytes : Nat
deriving DecidableEq, Repr

structure StartupEvent where
  operationsModule : String
  operations : List String
  endpointCount : Nat
deriving DecidableEq, Repr

inductive AuditEvent where
  | request (e : RequestEvent)
  | startup (e : StartupEvent)
deriving DecidableEq, Repr

namespace AuditEvent

def toJson (now : Nat) : AuditEvent → Json
  | request e =>
    .object [("event", .string "capability_request"), ("timestamp_ms", .integer now),
      ("outcome", .string (if e.success then "success" else "error")),
      ("error_kind", .ofOption .string e.errorKind), ("detail", .ofOption .string e.detail),
      ("method", .ofOption .string e.method),
      ("identity_fingerprint", .ofOption .string e.fingerprint),
      ("request_bytes", .integer e.requestBytes), ("response_bytes", .integer e.responseBytes)]
  | startup e =>
    .object [("event", .string "guardian_startup"), ("timestamp_ms", .integer now),
      ("operations_module", .string e.operationsModule),
      ("operations", .array (e.operations.map .string)),
      ("endpoint_count", .integer e.endpointCount)]

def line (now : Nat) (e : AuditEvent) : String := (e.toJson now).render

end AuditEvent

end Gatekeeper
