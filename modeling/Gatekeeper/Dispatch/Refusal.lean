namespace Gatekeeper

/-- Why a request is refused. What the caller is told depends only on the kind of the refusal and,
for the structural kinds, on the name in it. -/
inductive Refusal where
  /-- The body is no JSON, or a field has the wrong type. -/
  | invalidJson
  | missingRequestField (name : String)
  | missingOperationField (name : String)
  | unknownOperation (name : String)
  /-- The key could not be looked up, or the envelope not opened. -/
  | unpack (detail : String)
  /-- The handler failed or broke down. -/
  | operationException (detail : String)
  | operationFailed
deriving DecidableEq, Repr

inductive Disclosure where
  | full (message : String)
  | confidential (sentence detail : String)
deriving DecidableEq, Repr

namespace Refusal

def message : Refusal → String
  | invalidJson => "invalid JSON"
  | missingRequestField name => s!"missing field in request: {name}"
  | missingOperationField name => s!"missing field: {name}"
  | unknownOperation name => s!"unknown operation: {name}"
  | unpack _ => "unknown exception while unpacking request"
  | operationException _ => "unknown exception while performing operation"
  | operationFailed => "operation failed"

def disclosure (r : Refusal) : Disclosure :=
  match r with
  | unpack detail => .confidential r.message detail
  | operationException detail => .confidential r.message detail
  | _ => .full r.message

def publicMessage (r : Refusal) : String :=
  match r.disclosure with
  | .full message => message
  | .confidential sentence _ => sentence

/-- What the server keeps to itself. -/
def detail? : Refusal → Option String
  | unpack detail => some detail
  | operationException detail => some detail
  | _ => none

def kind : Refusal → String
  | invalidJson => "invalid_json"
  | missingRequestField _ => "missing_request_field"
  | missingOperationField _ => "missing_operation_field"
  | unknownOperation _ => "unknown_operation"
  | unpack _ => "unpack_failed"
  | operationException _ => "operation_exception"
  | operationFailed => "operation_failed"

theorem publicMessage_eq_message (r : Refusal) : r.publicMessage = r.message := by
  cases r <;> rfl

end Refusal

end Gatekeeper
