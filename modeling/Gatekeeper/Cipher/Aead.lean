import Gatekeeper.Cipher.ChaCha20
import Gatekeeper.Cipher.Poly1305

namespace Gatekeeper.Cipher.Aead

def keyBytes : Nat := 32

def nonceBytes : Nat := 12

def tagBytes : Nat := 16

/-- The number of whole blocks from which on a text is too long for the block counter. -/
def blockLimit : Nat := 4294967295

def fitsCounter (length : Nat) : Bool := length / 64 < blockLimit

/-- The one-time key of the authenticator: the start of block zero of the key stream. -/
def oneTimeKey (key nonce : Bytes) : Bytes := (ChaCha20.block key nonce 0).take 32

/-- What is authenticated: the encrypted text up to whole blocks, then the lengths of the
associated data, of which there is none, and of the encrypted text. -/
def authenticated (encrypted : Bytes) : Bytes :=
  encrypted ++ List.replicate ((16 - encrypted.length % 16) % 16) 0 ++ Bytes.ofNat 8 0 ++
    Bytes.ofNat 8 encrypted.length

def tagOf (key nonce encrypted : Bytes) : Bytes :=
  Poly1305.tag (oneTimeKey key nonce) (authenticated encrypted)

def seal? (key nonce text : Bytes) : Option Bytes :=
  if fitsCounter text.length then
    let encrypted := ChaCha20.overlay key nonce text
    some (encrypted ++ tagOf key nonce encrypted)
  else none

def open? (key nonce whole : Bytes) : Option Bytes :=
  if whole.length < tagBytes then none
  else
    let encrypted := whole.take (whole.length - tagBytes)
    if fitsCounter encrypted.length ∧
        tagOf key nonce encrypted = whole.drop (whole.length - tagBytes) then
      some (ChaCha20.overlay key nonce encrypted)
    else none

theorem length_tagOf (key nonce encrypted : Bytes) :
    (tagOf key nonce encrypted).length = tagBytes := Poly1305.length_tag _ _

theorem length_of_seal? {key nonce text whole : Bytes} (h : seal? key nonce text = some whole) :
    whole.length = text.length + tagBytes := by
  simp only [seal?] at h
  split at h
  · obtain rfl := Option.some.inj h
    simp [length_tagOf, ChaCha20.length_overlay]
  · cases h

theorem open?_eq_some_iff (key nonce whole text : Bytes) :
    open? key nonce whole = some text ↔ seal? key nonce text = some whole := by
  constructor
  · intro h
    simp only [open?] at h
    split at h
    · cases h
    · split at h
      next hlen hok =>
        obtain rfl := Option.some.inj h
        rw [seal?, ChaCha20.length_overlay, if_pos hok.1, ChaCha20.overlay_overlay]
        simp only [hok.2, List.take_append_drop]
      · cases h
  · intro h
    have hlen := length_of_seal? h
    simp only [seal?] at h
    split at h
    next hfit =>
      obtain rfl := Option.some.inj h
      have htake : (ChaCha20.overlay key nonce text).length =
          (ChaCha20.overlay key nonce text ++ tagOf key nonce (ChaCha20.overlay key nonce text)).length
            - tagBytes := by
        simp [length_tagOf]
      rw [open?, if_neg (by omega)]
      simp only [← htake, List.take_left', List.drop_left']
      rw [if_pos ⟨by rwa [ChaCha20.length_overlay], trivial⟩, ChaCha20.overlay_overlay]
    · cases h

end Gatekeeper.Cipher.Aead
