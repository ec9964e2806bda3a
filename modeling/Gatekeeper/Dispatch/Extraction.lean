import Gatekeeper.Dispatch.Refusal
import Gatekeeper.Request

namespace Gatekeeper

def asObject (v : Json) : Except Refusal (List (String × Json)) :=
  match v with
  | .object fields => .ok fields
  | _ => .error .invalidJson

def required (missing : String → Refusal) (fields : List (String × Json)) (name : String) :
    Except Refusal Json :=
  match fields.lookup name with
  | some v => .ok v
  | none => .error (missing name)

def asText (v : Json) : Except Refusal String :=
  match v with
  | .string s => .ok s
  | _ => .error .invalidJson

namespace Request

def ofDocument (d : Json) : Except Refusal Request := do
  let fields ← asObject d
  let name ← asText (← required .missingRequestField fields "minted_identity")
  let operation ← asObject (← required .missingRequestField fields "operation")
  let text (name : String) := do asText (← required .missingRequestField operation name)
  let encryptedSessionKey ← text "encrypted_session_key"
  let sessionKeyIv ← text "session_key_iv"
  let encryptedMessage ← text "encrypted_message"
  .ok ⟨⟨name⟩, { encryptedSessionKey, sessionKeyIv, encryptedMessage }⟩

end Request

namespace Operation

def ofDocument (d : Json) : Except Refusal Operation := do
  let fields ← asObject d
  let nonce ← match fields.lookup "nonce" with
    | none => .ok none
    | some v => (asText v).map some
  let method ← asText (← required .missingOperationField fields "method_name")
  let parameters ← asObject (← required .missingOperationField fields "parameters")
  .ok { nonce, method, parameters }

end Operation

end Gatekeeper
