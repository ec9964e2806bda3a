import Gatekeeper.Capability.Key
import Gatekeeper.Json.Printer
import Gatekeeper.Json.Reader

namespace Gatekeeper

/-- Three texts in base64. A session key is sealed under the capability key, behind the nonce it was
sealed with, and the message is sealed under the session key with a nonce of its own. -/
structure Envelope where
  encryptedSessionKey : String
  sessionKeyIv : String
  encryptedMessage : String
deriving DecidableEq, Inhabited

inductive ChannelError where
  | encoding (what : String)
  | decrypt (what : String)
  | encrypt
  | payload (cause : String)
deriving DecidableEq, Repr

def ChannelError.message : ChannelError → String
  | encoding what => s!"secret channel encoding error: {what}"
  | decrypt what => s!"secret channel decryption failed: {what}"
  | encrypt => "secret channel encryption failed"
  | payload cause => s!"secret channel payload is not json: {cause}"

/-- What a seal is made with anew each time. -/
structure Freshness where
  sessionKey : Key
  wrapNonce : Bytes
  iv : Bytes
  wrapNonce_length : wrapNonce.length = Cipher.Aead.nonceBytes
  iv_length : iv.length = Cipher.Aead.nonceBytes

namespace Envelope

open Cipher

def pack (k : Key) (f : Freshness) (payload : Json) : Except ChannelError Envelope :=
  match Aead.seal? k.bytes f.wrapNonce f.sessionKey.bytes,
      Aead.seal? f.sessionKey.bytes f.iv payload.renderBytes with
  | some wrapped, some message =>
    .ok ⟨Text.Base64.encode (f.wrapNonce ++ wrapped), Text.Base64.encode f.iv, Text.Base64.encode message⟩
  | _, _ => .error .encrypt

def decodeField (name value : String) : Except ChannelError Bytes :=
  match Text.Base64.decode? value with
  | some bytes => .ok bytes
  | none => .error (.encoding s!"{name} not base64")

def openSessionKey (k : Key) (e : Envelope) : Except ChannelError Bytes := do
  let wrapped ← decodeField "encrypted_session_key" e.encryptedSessionKey
  if wrapped.length ≤ Aead.nonceBytes then .error (.encoding "encrypted_session_key too short")
  else
    match Aead.open? k.bytes (wrapped.take Aead.nonceBytes) (wrapped.drop Aead.nonceBytes) with
    | none => .error (.decrypt "session key")
    | some sessionKey =>
      if sessionKey.length = Aead.keyBytes then .ok sessionKey
      else .error (.decrypt "session key length")

def openMessage (sessionKey : Bytes) (e : Envelope) : Except ChannelError Bytes := do
  let iv ← decodeField "session_key_iv" e.sessionKeyIv
  if iv.length ≠ Aead.nonceBytes then .error (.encoding "session_key_iv length")
  else
    let sealed ← decodeField "encrypted_message" e.encryptedMessage
    match Aead.open? sessionKey iv sealed with
    | none => .error (.decrypt "message")
    | some message => .ok message

def unpack (k : Key) (e : Envelope) : Except ChannelError Json := do
  let sessionKey ← openSessionKey k e
  let message ← openMessage sessionKey e
  match Json.parseBytes message with
  | .ok v => .ok v
  | .error fault => .error (.payload fault.message)

end Envelope

end Gatekeeper
