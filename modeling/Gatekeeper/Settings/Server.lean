import Gatekeeper.Json.Shape
import Gatekeeper.Json.Value
import Gatekeeper.Net.SocketAddress
import Gatekeeper.Settings.Violation

namespace Gatekeeper

structure AuditSettings where
  enabled : Bool := true
  /-- The file of the log; without one the events go to the standard error stream. -/
  path : Option String := none
deriving DecidableEq, Repr, Inhabited

namespace AuditSettings

def shape : Shape := .record [({ name := "enabled" }, .flag), ({ name := "path" }, .optional .text)]

def ofRecord (v : Json) : AuditSettings where
  enabled := ((v.field? "enabled").bind Json.bool?).getD true
  path := (v.field? "path").bind Json.string?

def check (s : AuditSettings) : Except Violation Unit :=
  match s.path.bind fun p ↦ PathFault.of? (Text.trim p) with
  | some fault => .error (.path .auditLog fault)
  | none => .ok ()

end AuditSettings

structure ServerSettings where
  bind : String := "127.0.0.1:8080"
  maxBodyBytes : Nat := 1024 * 1024
  allowNonLoopback : Bool := false
  audit : AuditSettings := {}
deriving DecidableEq, Repr, Inhabited

namespace ServerSettings

def shape : Shape :=
  .record [({ name := "bind" }, .text), ({ name := "max_body_bytes" }, .natural),
    ({ name := "allow_non_loopback" }, .flag), ({ name := "audit" }, AuditSettings.shape)]

def ofRecord (v : Json) : ServerSettings :=
  let standard : ServerSettings := {}
  { bind := ((v.field? "bind").bind Json.string?).getD standard.bind
    maxBodyBytes := ((v.field? "max_body_bytes").bind Json.natural?).getD standard.maxBodyBytes
    allowNonLoopback := ((v.field? "allow_non_loopback").bind Json.bool?).getD standard.allowNonLoopback
    audit := ((v.field? "audit").map AuditSettings.ofRecord).getD standard.audit }

def address (s : ServerSettings) : Except Violation Net.SocketAddress :=
  if (Text.trim s.bind).isEmpty then .error .bindBlank
  else
    match Net.SocketAddress.parse? (Text.trim s.bind) with
    | some a => .ok a
    | none => .error .bindMalformed

def check (s : ServerSettings) : Except Violation Unit :=
  if s.maxBodyBytes = 0 then .error .bodyLimitZero
  else if Limit.bodyBytes < s.maxBodyBytes then .error .bodyLimitTooGreat
  else
    match s.address with
    | .error e => .error e
    | .ok a =>
      if a.host.isLoopback || s.allowNonLoopback then s.audit.check else .error .bindExposed

end ServerSettings

end Gatekeeper
