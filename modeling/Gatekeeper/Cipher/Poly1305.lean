import Gatekeeper.Text.Bytes

namespace Gatekeeper.Cipher.Poly1305

def modulus : Nat := 1361129467683753853853498429727072845819

/-- The point of evaluation, with the bits cleared that it never has. -/
def clamp (r : Nat) : Nat := r &&& 0x0ffffffc0ffffffc0ffffffc0fffffff

/-- Takes up a number of blocks of the message; each block is closed by a set bit. -/
def evaluate (r : Nat) : Nat → Nat → Bytes → Nat
  | 0, sum, _ => sum
  | blocks + 1, sum, message =>
    evaluate r blocks ((sum + Bytes.toNat (message.take 16 ++ [1])) * r % modulus) (message.drop 16)

/-- A message is a polynomial, with one coefficient for sixteen bytes. It is evaluated at the first
half of the one-time key and masked by the other half. -/
def tag (key message : Bytes) : Bytes :=
  let r := clamp (Bytes.toNat (key.take 16))
  let mask := Bytes.toNat ((key.drop 16).take 16)
  Bytes.ofNat 16 (evaluate r ((message.length + 15) / 16) 0 message + mask)

theorem length_tag (key message : Bytes) : (tag key message).length = 16 := by
  simp [tag, Bytes.length_ofNat]

end Gatekeeper.Cipher.Poly1305
