import Gatekeeper.Cipher.Aead
import Gatekeeper.Text.Base64
import Gatekeeper.Text.Blank

namespace Gatekeeper

@[ext]
structure Key where
  bytes : Bytes
  length_eq : bytes.length = Cipher.Aead.keyBytes
deriving DecidableEq

inductive KeyError where
  | encoding
  | length (actual : Nat)
deriving DecidableEq, Repr

def KeyError.message : KeyError → String
  | .encoding => "capability key is not valid base64"
  | .length actual => s!"capability key must be {Cipher.Aead.keyBytes} bytes, got {actual}"

namespace Key

def ofBytes (bytes : Bytes) : Except KeyError Key :=
  if h : bytes.length = Cipher.Aead.keyBytes then .ok ⟨bytes, h⟩ else .error (.length bytes.length)

/-- The key that a text writes; blanks around it do not count. -/
def ofBase64 (s : String) : Except KeyError Key :=
  match Text.Base64.decode? (Text.trim s) with
  | some bytes => ofBytes bytes
  | none => .error .encoding

def toBase64 (k : Key) : String := Text.Base64.encode k.bytes

def redacted (_ : Key) : String := "CapabilityKey(<redacted>)"

theorem ofBytes_eq_ok_iff {bytes : Bytes} {k : Key} : ofBytes bytes = .ok k ↔ bytes = k.bytes := by
  simp only [ofBytes]
  split
  · simp [Key.ext_iff]
  next h =>
    simp only [reduceCtorEq, false_iff]
    rintro rfl
    exact h k.length_eq

end Key

end Gatekeeper
