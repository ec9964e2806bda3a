import Gatekeeper.Capability.Key
import Gatekeeper.Disk.Path

namespace Gatekeeper

namespace Limit

def configurationBytes : Nat := 1024 * 1024

def bodyBytes : Nat := 16 * 1024 * 1024

def seededKeys : Nat := 1024

def endpoints : Nat := 256

def identifierBytes : Nat := 512

end Limit

inductive PathRole where
  | configuration
  | auditLog
  | store
deriving DecidableEq, Repr

def PathRole.subject : PathRole → String
  | configuration => "config path"
  | auditLog => "audit.path"
  | store => "capability_store path"

inductive PathFault where
  | blank
  | tooLong
  | longComponent
deriving DecidableEq, Repr

def PathFault.ofLengths? (path : String) : Option PathFault :=
  if Disk.Path.maxPathBytes < path.utf8ByteSize then some tooLong
  else if Disk.Path.hasLongComponent path then some longComponent
  else none

/-- What is wrong with a path that must not be blank. -/
def PathFault.of? (path : String) : Option PathFault :=
  if (Text.trim path).isEmpty then some blank else ofLengths? path

inductive Violation where
  | fileTooLong
  | fileNotText
  | operationsUnset
  | operationsBlank
  | operationsTooLong
  | bodyLimitZero
  | bodyLimitTooGreat
  | bindBlank
  | bindMalformed
  | bindExposed
  | path (role : PathRole) (fault : PathFault)
  | memoryWithPath
  | databaseWithoutPath
  | databaseWithKeys
  | tooManyKeys
  | keyIdentityBlank
  | keyIdentityTooLong
  | key (identity : String) (error : KeyError)
  | duplicateIdentity (identity : String)
  | tooManyEndpoints
  | endpointIdBlank
  | endpointIdTooLong
  | duplicateEndpoint (id : String)
  | endpointUrl (id : String)
deriving DecidableEq, Repr

namespace Violation

def message : Violation → String
  | fileTooLong => "config file exceeds size limit"
  | fileNotText => "config file must be utf-8"
  | operationsUnset => "guardian_service.operations must be set"
  | operationsBlank => "guardian_service.operations must be non-empty"
  | operationsTooLong => "guardian_service.operations exceeds max length"
  | bodyLimitZero => "max_body_bytes must be greater than zero"
  | bodyLimitTooGreat => s!"max_body_bytes must be at most {Limit.bodyBytes}"
  | bindBlank => "server.bind must be non-empty"
  | bindMalformed => "invalid bind address"
  | bindExposed => "non-loopback bind requires server.allow_non_loopback"
  | path role .blank => s!"{role.subject} must be non-empty"
  | path role .tooLong => s!"{role.subject} exceeds max length"
  | path .auditLog .longComponent => "audit.path path component too long"
  | path role .longComponent => s!"{role.subject} component too long"
  | memoryWithPath => "memory capability_store must not set path"
  | databaseWithoutPath => "sqlite capability_store requires path"
  | databaseWithKeys => "sqlite capability_store does not accept seeded keys"
  | tooManyKeys => s!"capability_store.keys exceeds max of {Limit.seededKeys}"
  | keyIdentityBlank => "capability_store.keys identity must be non-empty"
  | keyIdentityTooLong => "capability_store.keys identity exceeds max length"
  | key identity error => s!"capability_store.keys[{identity}]: {error.message}"
  | duplicateIdentity identity => s!"duplicate capability identity: {identity}"
  | tooManyEndpoints => s!"endpoints exceeds max of {Limit.endpoints}"
  | endpointIdBlank => "endpoint_id must be non-empty"
  | endpointIdTooLong => "endpoint_id exceeds max length"
  | duplicateEndpoint id => s!"duplicate endpoint_id: {id}"
  | endpointUrl id => s!"endpoint {id} url must start with http:// or https://"

end Violation

end Gatekeeper
