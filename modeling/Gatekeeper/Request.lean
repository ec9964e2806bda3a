import Gatekeeper.Capability.Identity
import Gatekeeper.Envelope

namespace Gatekeeper

structure Request where
  identity : Identity
  envelope : Envelope
deriving DecidableEq, Inhabited

/-- An operation: the method, its parameters, and a nonce that is carried along. -/
structure Operation where
  nonce : Option String
  method : String
  parameters : List (String × Json)
deriving Inhabited

def requiredText (name : String) : Field × Shape := ({ name, required := true }, .text)

namespace Identity

def toJson (i : Identity) : Json := .string i.name

end Identity

namespace Envelope

def shape : Shape :=
  .record [requiredText "encrypted_session_key", requiredText "session_key_iv",
    requiredText "encrypted_message"]

def ofRecord? (v : Json) : Option Envelope := do
  let encryptedSessionKey ← (← v.field? "encrypted_session_key").string?
  let sessionKeyIv ← (← v.field? "session_key_iv").string?
  let encryptedMessage ← (← v.field? "encrypted_message").string?
  some { encryptedSessionKey, sessionKeyIv, encryptedMessage }

def toJson (e : Envelope) : Json :=
  .object [("encrypted_session_key", .string e.encryptedSessionKey),
    ("session_key_iv", .string e.sessionKeyIv), ("encrypted_message", .string e.encryptedMessage)]

end Envelope

namespace Request

def shape : Shape :=
  .record [requiredText "minted_identity", ({ name := "operation", required := true }, Envelope.shape)]

def ofRecord? (v : Json) : Option Request := do
  let name ← (← v.field? "minted_identity").string?
  let envelope ← Envelope.ofRecord? (← v.field? "operation")
  some ⟨⟨name⟩, envelope⟩

def toJson (r : Request) : Json :=
  .object [("minted_identity", r.identity.toJson), ("operation", r.envelope.toJson)]

end Request

namespace Operation

def shape : Shape :=
  .record [({ name := "nonce" }, .optional .text), requiredText "method_name",
    ({ name := "parameters", required := true }, .table)]

def ofRecord? (v : Json) : Option Operation := do
  let method ← (← v.field? "method_name").string?
  let parameters ← (← v.field? "parameters").object?
  some { nonce := (v.field? "nonce").bind Json.string?, method, parameters }

def toJson (o : Operation) : Json :=
  .ofPresent [("nonce", o.nonce.map .string), ("method_name", some (.string o.method)),
    ("parameters", some (.object o.parameters))]

end Operation

namespace Json

def decode (shape : Shape) (ofRecord? : Json → Option α) (s : String) : Except Fault α :=
  match readAll shape s.toList with
  | .error e => .error e
  | .ok v =>
    match ofRecord? v with
    | some a => .ok a
    | none => .error .mismatch

end Json

end Gatekeeper
