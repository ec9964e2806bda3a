import Gatekeeper.Endpoint
import Gatekeeper.Settings.Server
import Gatekeeper.Settings.Service
import Gatekeeper.Settings.Store
import Gatekeeper.Toml.Document
import Gatekeeper.Toml.Shape

namespace Gatekeeper

namespace ServiceSettings

def shape : Shape :=
  .record [({ name := "operations", aliases := ["Operations"] }, .optional .text),
    ({ name := "settings" }, .table)]

def ofRecord (v : Json) : ServiceSettings where
  operations := (v.field? "operations").bind Json.string?
  settings := ((v.field? "settings").bind Json.object?).getD []

def check (s : ServiceSettings) : Except Violation Unit :=
  match s.operations with
  | none => .error .operationsUnset
  | some name =>
    if (Text.trim name).isEmpty then .error .operationsBlank
    else if Limit.identifierBytes < (Text.trim name).utf8ByteSize then .error .operationsTooLong
    else .ok ()

end ServiceSettings

namespace Endpoint

def trimmed (e : Endpoint) : Endpoint := ⟨Text.trim e.id, Text.trim e.url⟩

def isWeb (e : Endpoint) : Bool :=
  "http://".toList.isPrefixOf e.url.toList || "https://".toList.isPrefixOf e.url.toList

/-- Checks trimmed endpoints behind others that have taken the identifiers `seen`. -/
def checkAll (seen : List String) : List Endpoint → Except Violation Unit
  | [] => .ok ()
  | e :: rest =>
    if e.id.isEmpty then .error .endpointIdBlank
    else if Limit.identifierBytes < e.id.utf8ByteSize then .error .endpointIdTooLong
    else if seen.contains e.id then .error (.duplicateEndpoint e.id)
    else if e.isWeb then checkAll (e.id :: seen) rest
    else .error (.endpointUrl e.id)

end Endpoint

structure Configuration where
  service : ServiceSettings := {}
  server : ServerSettings := {}
  store : StoreSettings := {}
  endpoints : List Endpoint := []
deriving Inhabited

inductive ConfigurationError where
  | unreadable (cause : String)
  | malformed (cause : String)
  | invalid (violation : Violation)
deriving DecidableEq, Repr

def ConfigurationError.message : ConfigurationError → String
  | unreadable cause => s!"config io error: {cause}"
  | malformed cause => s!"config parse error: {cause}"
  | invalid violation => s!"invalid config: {violation.message}"

namespace Configuration

def shape : Shape :=
  .record [({ name := "guardian_service", aliases := ["GuardianService"] }, ServiceSettings.shape),
    ({ name := "server" }, ServerSettings.shape), ({ name := "capability_store" }, StoreSettings.shape),
    ({ name := "endpoints" }, .list Endpoint.shape)]

def ofRecord (v : Json) : Configuration where
  service := ((v.field? "guardian_service").map ServiceSettings.ofRecord).getD {}
  server := ((v.field? "server").map ServerSettings.ofRecord).getD {}
  store := ((v.field? "capability_store").map StoreSettings.ofRecord).getD {}
  endpoints := (((v.field? "endpoints").bind Json.array?).getD []).filterMap Endpoint.ofRecord?

def endpointRecords (c : Configuration) : List Endpoint := c.endpoints.map Endpoint.trimmed

def checkEndpoints (c : Configuration) : Except Violation Unit :=
  if Limit.endpoints < c.endpoints.length then .error .tooManyEndpoints
  else Endpoint.checkAll [] c.endpointRecords

/-- Finds the first violation: of the service, the server, the store, then the endpoints. -/
def check (c : Configuration) : Except Violation Unit := do
  c.service.check
  c.server.check
  c.store.check
  c.checkEndpoints

/-- The configuration that a TOML text writes, whether or not it is a good one. -/
def ofToml? (s : String) : Option Configuration :=
  ((Toml.parse s).bind (Toml.ofShape? shape)).map ofRecord

def checked (c : Configuration) : Except ConfigurationError Configuration :=
  match c.check with
  | .ok () => .ok c
  | .error v => .error (.invalid v)

def ofToml (s : String) : Except ConfigurationError Configuration :=
  if Limit.configurationBytes < s.utf8ByteSize then .error (.invalid .fileTooLong)
  else
    match ofToml? s with
    | some c => c.checked
    | none => .error (.malformed "the text is not a configuration")

end Configuration

end Gatekeeper
