import Gatekeeper.Envelope
import Gatekeeper.Proofs.Json.RoundTrip
import Gatekeeper.Proofs.Results
import Gatekeeper.Proofs.Text.Base64

namespace Gatekeeper

open Cipher Text

namespace Envelope

structure Parts where
  wrapNonce : Bytes
  sessionKey : Bytes
  iv : Bytes
  message : Bytes

/-- The first text is written for a nonce and a session key. -/
def Wraps (k : Key) (e : Envelope) (wrapNonce sessionKey : Bytes) : Prop :=
  ∃ wrapped, Aead.seal? k.bytes wrapNonce sessionKey = some wrapped ∧
    e.encryptedSessionKey = Base64.encode (wrapNonce ++ wrapped)

def Carries (sessionKey : Bytes) (e : Envelope) (iv message : Bytes) : Prop :=
  e.sessionKeyIv = Base64.encode iv ∧
    ∃ sealed, Aead.seal? sessionKey iv message = some sealed ∧ e.encryptedMessage = Base64.encode sealed

structure Holds (k : Key) (e : Envelope) (p : Parts) : Prop where
  wrapNonce_length : p.wrapNonce.length = Aead.nonceBytes
  sessionKey_length : p.sessionKey.length = Aead.keyBytes
  iv_length : p.iv.length = Aead.nonceBytes
  wraps : e.Wraps k p.wrapNonce p.sessionKey
  carries : e.Carries p.sessionKey p.iv p.message

variable {k : Key} {f : Freshness} {payload : Json} {e e' : Envelope} {sessionKey wrapNonce iv message : Bytes}

theorem decodeField_eq_ok_iff {name value : String} {bytes : Bytes} :
    decodeField name value = .ok bytes ↔ value = Base64.encode bytes := by
  rw [← Base64.decode?_eq_some_iff, decodeField]
  cases Base64.decode? value <;> simp

theorem openSessionKey_eq_ok_iff : openSessionKey k e = .ok sessionKey ↔
    sessionKey.length = Aead.keyBytes ∧
      ∃ wrapNonce, wrapNonce.length = Aead.nonceBytes ∧ e.Wraps k wrapNonce sessionKey := by
  simp only [openSessionKey, bind_eq_ok_iff, decodeField_eq_ok_iff]
  constructor
  · rintro ⟨wrapped, htext, h⟩
    split at h
    · cases h
    next hlong =>
      split at h
      · cases h
      next opened hopen =>
        split at h
        next hlen =>
          obtain rfl := Except.ok.inj h
          refine ⟨hlen, wrapped.take Aead.nonceBytes, by simp; omega, wrapped.drop Aead.nonceBytes, ?_, ?_⟩
          · exact (Aead.open?_eq_some_iff _ _ _ _).1 hopen
          · rw [List.take_append_drop, htext]
        · cases h
  · rintro ⟨hlen, wrapNonce, hnonce, wrapped, hseal, htext⟩
    -- With the tag behind it even an empty session key is more than a nonce.
    have hlong := Aead.length_of_seal? hseal
    refine ⟨wrapNonce ++ wrapped, htext, ?_⟩
    rw [if_neg (by simp [hlong, hnonce, hlen, Aead.tagBytes]), ← hnonce, List.take_left, List.drop_left,
      (Aead.open?_eq_some_iff _ _ _ _).2 hseal]
    exact if_pos hlen

theorem openMessage_eq_ok_iff : openMessage sessionKey e = .ok message ↔
    ∃ iv, iv.length = Aead.nonceBytes ∧ e.Carries sessionKey iv message := by
  simp only [openMessage, bind_eq_ok_iff, decodeField_eq_ok_iff]
  constructor
  · rintro ⟨iv, hiv, h⟩
    split at h
    · cases h
    next hlen =>
      obtain ⟨sealed, htext, h⟩ := bind_eq_ok_iff.1 h
      split at h
      · cases h
      next opened hopen =>
        obtain rfl := Except.ok.inj h
        refine ⟨iv, Decidable.not_not.1 hlen, hiv, sealed, (Aead.open?_eq_some_iff _ _ _ _).1 hopen, ?_⟩
        exact decodeField_eq_ok_iff.1 htext
  · rintro ⟨iv, hlen, hiv, sealed, hseal, htext⟩
    refine ⟨iv, hiv, ?_⟩
    rw [if_neg (not_not_intro hlen), bind_eq_ok_iff]
    refine ⟨sealed, decodeField_eq_ok_iff.2 htext, ?_⟩
    rw [(Aead.open?_eq_some_iff _ _ _ _).2 hseal]

theorem unpack_eq_ok_iff {v : Json} :
    e.unpack k = .ok v ↔ ∃ p, e.Holds k p ∧ Json.parseBytes p.message = .ok v := by
  simp only [unpack, bind_eq_ok_iff, openSessionKey_eq_ok_iff, openMessage_eq_ok_iff]
  constructor
  · rintro ⟨sessionKey, ⟨hkey, wrapNonce, hnonce, hwraps⟩, message, ⟨iv, hiv, hcarries⟩, hv⟩
    refine ⟨⟨wrapNonce, sessionKey, iv, message⟩, ⟨hnonce, hkey, hiv, hwraps, hcarries⟩, ?_⟩
    split at hv
    next w hread => rw [hread, Except.ok.inj hv]
    · cases hv
  · rintro ⟨p, ⟨hnonce, hkey, hiv, hwraps, hcarries⟩, hv⟩
    refine ⟨p.sessionKey, ⟨hkey, p.wrapNonce, hnonce, hwraps⟩, p.message, ⟨p.iv, hiv, hcarries⟩, ?_⟩
    rw [hv]

def partsOf (f : Freshness) (payload : Json) : Parts :=
  ⟨f.wrapNonce, f.sessionKey.bytes, f.iv, payload.renderBytes⟩

theorem exists_seal (key nonce : Bytes) {text : Bytes} (h : Aead.fitsCounter text.length) :
    ∃ whole, Aead.seal? key nonce text = some whole := ⟨_, if_pos h⟩

theorem exists_pack (k : Key) (f : Freshness) {payload : Json}
    (h : Aead.fitsCounter payload.renderBytes.length) :
    ∃ e, pack k f payload = .ok e := by
  have hkey : Aead.fitsCounter f.sessionKey.bytes.length := by
    rw [f.sessionKey.length_eq]
    rfl
  obtain ⟨wrapped, hwrapped⟩ := exists_seal k.bytes f.wrapNonce hkey
  obtain ⟨sealed, hsealed⟩ := exists_seal f.sessionKey.bytes f.iv h
  exact ⟨_, by rw [pack, hwrapped, hsealed]⟩

theorem holds_of_pack (h : pack k f payload = .ok e) : e.Holds k (partsOf f payload) := by
  unfold pack at h
  split at h
  next wrapped sealed hwrapped hsealed =>
    obtain rfl := Except.ok.inj h
    exact ⟨f.wrapNonce_length, f.sessionKey.length_eq, f.iv_length, ⟨wrapped, hwrapped, rfl⟩, rfl, sealed,
      hsealed, rfl⟩
  · cases h

/-- A text sealed with a key and a nonce is a seal of no other text. -/
theorem seal?_inj {key nonce first second whole : Bytes} (h₁ : Aead.seal? key nonce first = some whole)
    (h₂ : Aead.seal? key nonce second = some whole) : first = second := by
  rw [← Aead.open?_eq_some_iff] at h₁ h₂
  exact Option.some.inj (h₁.symm.trans h₂)

theorem Wraps.unique {otherNonce otherKey : Bytes} (h₁ : e.Wraps k wrapNonce sessionKey)
    (h₂ : e.Wraps k otherNonce otherKey) (hlen : wrapNonce.length = otherNonce.length) :
    wrapNonce = otherNonce ∧ sessionKey = otherKey := by
  obtain ⟨wrapped₁, hseal₁, htext₁⟩ := h₁
  obtain ⟨wrapped₂, hseal₂, htext₂⟩ := h₂
  -- Both nonces are cut off at the same place.
  have hbytes := Base64.encode_injective (htext₁.symm.trans htext₂)
  obtain ⟨rfl, rfl⟩ := List.append_inj hbytes hlen
  exact ⟨rfl, seal?_inj hseal₁ hseal₂⟩

theorem Carries.unique {otherIv otherMessage : Bytes} (h₁ : e.Carries sessionKey iv message)
    (h₂ : e.Carries sessionKey otherIv otherMessage) : iv = otherIv ∧ message = otherMessage := by
  obtain ⟨hiv₁, sealed₁, hseal₁, htext₁⟩ := h₁
  obtain ⟨hiv₂, sealed₂, hseal₂, htext₂⟩ := h₂
  obtain rfl := Base64.encode_injective (hiv₁.symm.trans hiv₂)
  obtain rfl := Base64.encode_injective (htext₁.symm.trans htext₂)
  exact ⟨rfl, seal?_inj hseal₁ hseal₂⟩

theorem Holds.unique {p q : Parts} (hp : e.Holds k p) (hq : e.Holds k q) : p = q := by
  have hlen := hp.wrapNonce_length.trans hq.wrapNonce_length.symm
  obtain ⟨hnonce, hkey⟩ := hp.wraps.unique hq.wraps hlen
  obtain ⟨hiv, hmessage⟩ := hp.carries.unique (hkey ▸ hq.carries)
  cases p
  cases q
  simp_all

theorem Holds.eq_of_same {p : Parts} (h : e.Holds k p) (h' : e'.Holds k p) : e = e' := by
  obtain ⟨wrapped, hwrap, hkey⟩ := h.wraps
  obtain ⟨wrapped', hwrap', hkey'⟩ := h'.wraps
  obtain rfl := Option.some.inj (hwrap.symm.trans hwrap')
  obtain ⟨hiv, sealed, hseal, hmessage⟩ := h.carries
  obtain ⟨hiv', sealed', hseal', hmessage'⟩ := h'.carries
  obtain rfl := Option.some.inj (hseal.symm.trans hseal')
  cases e
  cases e'
  simp_all

/-- The format is exact: an envelope opens to a value exactly if it is written for parts whose message
reads as the value, there are no other such parts, and the parts have no other envelope. -/
theorem unpack_exact (k : Key) (e : Envelope) :
    (∀ v, e.unpack k = .ok v ↔ ∃ p, e.Holds k p ∧ Json.parseBytes p.message = .ok v) ∧
    (∀ p q, e.Holds k p → e.Holds k q → p = q) ∧
    ∀ p e', e.Holds k p → Envelope.Holds k e' p → e = e' :=
  ⟨fun _ ↦ unpack_eq_ok_iff, fun _ _ hp hq ↦ hp.unique hq, fun _ _ h h' ↦ h.eq_of_same h'⟩

theorem unpack_exact_null : ∃ (k : Key) (e : Envelope) (p : Parts), p.message = Bytes.ofString "null" ∧
    e.unpack k = .ok .null ∧ (∀ q, e.Holds k q → q = p) ∧ ∀ e', Envelope.Holds k e' p → e' = e := by
  let k : Key := ⟨List.replicate 32 7, rfl⟩
  let f : Freshness := ⟨k, List.replicate 12 1, List.replicate 12 2, rfl, rfl⟩
  have hread := Json.parseBytes_renderBytes .null trivial (Nat.zero_le _)
  have hfits : Aead.fitsCounter (Json.renderBytes .null).length := rfl
  obtain ⟨e, he⟩ := exists_pack k f hfits
  have hholds := holds_of_pack he
  obtain ⟨hopen, hparts, htexts⟩ := unpack_exact k e
  refine ⟨k, e, partsOf f .null, rfl, (hopen .null).2 ⟨_, hholds, hread⟩, fun q hq ↦ ?_, fun e' he' ↦ ?_⟩
  · exact hparts q _ hq hholds
  · exact (htexts _ e' hholds he').symm

end Envelope

end Gatekeeper
