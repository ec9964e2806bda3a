import Gatekeeper.Proofs.Envelope.Format

namespace Gatekeeper

open Cipher Text

namespace Envelope

variable {k : Key} {f : Freshness} {payload : Json} {e : Envelope}

theorem unpack_of_pack (h : pack k f payload = .ok e) (hexact : payload.All Json.IsExact)
    (hdepth : payload.depth ≤ Json.maxDepth) : e.unpack k = .ok payload.ordered :=
  unpack_eq_ok_iff.2 ⟨_, holds_of_pack h, Json.parseBytes_renderBytes payload hexact hdepth⟩

/-- What is too deep is sealed as well, but is not opened again. -/
theorem unpack_ne_ok_of_pack (h : pack k f payload = .ok e) (hexact : payload.All Json.IsExact)
    (hdepth : Json.maxDepth < payload.depth) (v : Json) : e.unpack k ≠ .ok v := by
  intro hopen
  obtain ⟨p, hholds, hread⟩ := unpack_eq_ok_iff.1 hopen
  obtain rfl := hholds.unique (holds_of_pack h)
  have hmalformed := Json.parseBytes_renderBytes_eq payload hexact
  rw [Json.within, if_neg (Nat.not_le.2 hdepth)] at hmalformed
  cases hread.symm.trans hmalformed

section

variable {p : Parts}

theorem Holds.length_sessionKey (h : e.Holds k p) :
    ∃ bytes, Base64.decode? e.encryptedSessionKey = some bytes ∧
      bytes.length = Aead.nonceBytes + Aead.keyBytes + Aead.tagBytes := by
  obtain ⟨wrapped, hseal, htext⟩ := h.wraps
  refine ⟨_, Base64.decode?_eq_some_iff.2 htext, ?_⟩
  rw [List.length_append, Aead.length_of_seal? hseal, h.wrapNonce_length, h.sessionKey_length]
  rfl

theorem Holds.length_iv (h : e.Holds k p) :
    ∃ bytes, Base64.decode? e.sessionKeyIv = some bytes ∧ bytes.length = Aead.nonceBytes :=
  ⟨_, Base64.decode?_eq_some_iff.2 h.carries.1, h.iv_length⟩

theorem Holds.length_message (h : e.Holds k p) :
    ∃ bytes, Base64.decode? e.encryptedMessage = some bytes ∧
      bytes.length = p.message.length + Aead.tagBytes := by
  obtain ⟨-, sealed, hseal, htext⟩ := h.carries
  exact ⟨_, Base64.decode?_eq_some_iff.2 htext, Aead.length_of_seal? hseal⟩

end

/-- Sealing a value succeeds and opening gives the value back, for all that may be drawn: as long as its
numbers are integers of 64 bits, its brackets not too deep, and its text not too long for the cipher. An
object whose fields are not in order comes back with its fields in order. -/
theorem unpack_pack (k : Key) (f : Freshness) (payload : Json) (hexact : payload.All Json.IsExact)
    (hdepth : payload.depth ≤ 127) (hfits : Aead.fitsCounter payload.renderBytes.length) :
    ∃ e, pack k f payload = .ok e ∧ e.unpack k = .ok payload.ordered ∧
      (payload.All Json.IsOrdered → e.unpack k = .ok payload) ∧
      (∃ bytes, Base64.decode? e.encryptedSessionKey = some bytes ∧ bytes.length = 60) ∧
      (∃ bytes, Base64.decode? e.sessionKeyIv = some bytes ∧ bytes.length = 12) ∧
      ∃ bytes, Base64.decode? e.encryptedMessage = some bytes ∧
        bytes.length = payload.renderBytes.length + 16 := by
  obtain ⟨e, he⟩ := exists_pack k f hfits
  have hopen := unpack_of_pack he hexact hdepth
  have hsame (hordered : payload.All Json.IsOrdered) : e.unpack k = .ok payload := by
    rw [hopen, Json.ordered_eq_self payload hordered]
  have hholds := holds_of_pack he
  exact ⟨e, he, hopen, hsame, hholds.length_sessionKey, hholds.length_iv, hholds.length_message⟩

/-- Both ends of the integers, nested and beside an escape and a character beyond the basic plane. -/
theorem unpack_pack_extremes : ∃ (k : Key) (f : Freshness) (e : Envelope) (payload : Json),
    payload = .object [("", .array [.integer (-9223372036854775808), .integer 18446744073709551615]),
      ("\n\"", .object [("𝄞", .null)])] ∧
    pack k f payload = .ok e ∧ e.unpack k = .ok payload := by
  let k : Key := ⟨List.replicate 32 7, rfl⟩
  let f : Freshness := ⟨k, List.replicate 12 1, List.replicate 12 2, rfl, rfl⟩
  obtain ⟨e, he, -, hopen, -⟩ := unpack_pack k f
    (.object [("", .array [.integer (-9223372036854775808), .integer 18446744073709551615]),
      ("\n\"", .object [("𝄞", .null)])])
    (by simp [Json.All, Json.AllFields, Json.AllItems, Json.IsExact, Json.leastInteger,
      Json.greatestInteger]) (by decide) (by decide)
  refine ⟨k, f, e, _, rfl, he, hopen ?_⟩
  simp only [Json.All, Json.AllFields, Json.AllItems, Json.IsOrdered]
  decide

end Envelope

end Gatekeeper
