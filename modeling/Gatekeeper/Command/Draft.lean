import Gatekeeper.Command.Basic
import Gatekeeper.Command.Error
import Gatekeeper.Request

namespace Gatekeeper

def Identity.typed (name : String) : Except CommandError Identity :=
  if (Text.trim name).isEmpty then .error .blankIdentity else .ok ⟨Text.trim name⟩

namespace Draft

def parameters (d : Draft) : Except CommandError Parameters :=
  match d.params with
  | none => .ok []
  | some text =>
    if CommandError.maxParamsBytes < text.utf8ByteSize then .error .paramsTooLong
    else
      match Json.parse text with
      | .ok (.object fields) => .ok fields
      | .ok _ => .error .paramsNotObject
      | .error fault => .error (.paramsMalformed fault)

def payload (d : Draft) (parameters : Parameters) : Json :=
  .ofPresent [("method_name", some (.string d.method)), ("nonce", d.nonce.map .string),
    ("parameters", some (.object parameters))]

/-- The request that carries the operation. The key is looked at first, then the identity, then the
parameters. -/
def request (d : Draft) (f : Freshness) : Except CommandError Request := do
  let key ← (Key.ofBase64 d.key).mapError .key
  let identity ← Identity.typed d.identity
  let parameters ← d.parameters
  let envelope ← (Envelope.pack key f (d.payload parameters)).mapError .sealing
  .ok { identity, envelope }

end Draft

/-- A request with its fields in the order of their names, as the command line writes it. -/
def Request.toSortedJson (r : Request) : Json :=
  .object [("minted_identity", r.identity.toJson),
    ("operation", .object [("encrypted_message", .string r.envelope.encryptedMessage),
      ("encrypted_session_key", .string r.envelope.encryptedSessionKey),
      ("session_key_iv", .string r.envelope.sessionKeyIv)])]

end Gatekeeper
