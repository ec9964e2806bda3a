import Gatekeeper.Command.Run
import Gatekeeper.Proofs.Dispatch.Sealed
import Gatekeeper.Proofs.Json.Tidy

namespace Gatekeeper

open Cipher

variable {σ : Type}

theorem Identity.typed_eq_ok_iff {name : String} {i : Identity} :
    Identity.typed name = .ok i ↔ (Text.trim name).isEmpty = false ∧ i = ⟨Text.trim name⟩ := by
  unfold Identity.typed
  cases (Text.trim name).isEmpty <;> simp [eq_comm]

namespace Draft

variable {draft : Draft} {f : Freshness} {r : Request} {k : Key} {p : Parameters}

theorem request_eq_ok_iff : draft.request f = .ok r ↔ ∃ k p, Key.ofBase64 draft.key = .ok k ∧
    Identity.typed draft.identity = .ok r.identity ∧ draft.parameters = .ok p ∧
    Envelope.pack k f (draft.payload p) = .ok r.envelope := by
  simp only [request, bind_eq_ok_iff, mapError_eq_ok_iff]
  constructor
  · rintro ⟨k, hk, i, hi, p, hp, e, he, hr⟩
    cases hr
    exact ⟨k, p, hk, hi, hp, he⟩
  · rintro ⟨k, p, hk, hi, hp, he⟩
    exact ⟨k, hk, _, hi, p, hp, _, he, rfl⟩

theorem tidy_parameters (hp : draft.parameters = .ok p) : Json.Tidy Json.maxDepth (.object p) := by
  unfold parameters at hp
  split at hp
  · cases hp
    exact ⟨⟨.nil, trivial⟩, by decide⟩
  · split at hp
    · cases hp
    · split at hp
      next hread =>
        cases hp
        exact Json.tidy_of_parse hread
      · cases hp
      · cases hp

def operation (draft : Draft) (p : Parameters) : Operation := ⟨draft.nonce, draft.method, p⟩

theorem payload_cases (draft : Draft) (p : Parameters) :
    (draft.nonce = none ∧ draft.payload p =
      .object [("method_name", .string draft.method), ("parameters", .object p)]) ∨
    ∃ t, draft.nonce = some t ∧ draft.payload p =
      .object [("method_name", .string draft.method), ("nonce", .string t), ("parameters", .object p)] := by
  unfold payload
  cases draft.nonce with
  | none => exact .inl ⟨rfl, rfl⟩
  | some t => exact .inr ⟨t, rfl, rfl⟩

theorem writtenIn_payload (draft : Draft) (p : Parameters) :
    (draft.operation p).WrittenIn (draft.payload p) := by
  rcases draft.payload_cases p with ⟨hnonce, hpayload⟩ | ⟨t, hnonce, hpayload⟩
  · exact ⟨by rw [hpayload]; rfl, by rw [hpayload]; rfl, by rw [hpayload, operation, hnonce]; rfl⟩
  · exact ⟨by rw [hpayload]; rfl, by rw [hpayload]; rfl, by rw [hpayload, operation, hnonce]; rfl⟩

/-- The parameters are one bracket deeper in the document that is sealed than they were typed. -/
theorem depth_payload (draft : Draft) (p : Parameters) :
    (draft.payload p).depth = (Json.object p).depth + 1 := by
  rcases draft.payload_cases p with ⟨-, hpayload⟩ | ⟨t, -, hpayload⟩ <;>
    simp [hpayload, Json.depth, Json.depthFields]

theorem exact_payload (draft : Draft) (h : Json.AllFields Json.IsExact p) :
    (draft.payload p).All Json.IsExact := by
  rcases draft.payload_cases p with ⟨-, hpayload⟩ | ⟨t, -, hpayload⟩ <;>
    simp [hpayload, Json.All, Json.AllFields, Json.IsExact, h]

theorem ordered_payload (draft : Draft) (h : (Json.object p).All Json.IsOrdered) :
    (draft.payload p).All Json.IsOrdered := by
  rcases draft.payload_cases p with ⟨-, hpayload⟩ | ⟨t, -, hpayload⟩
  · have hnames : ["method_name", "parameters"].Pairwise (· < ·) := by decide
    rw [hpayload]
    exact ⟨Json.isOrdered_object.2 hnames, trivial, h, trivial⟩
  · have hnames : ["method_name", "nonce", "parameters"].Pairwise (· < ·) := by decide
    rw [hpayload]
    exact ⟨Json.isOrdered_object.2 hnames, trivial, trivial, h, trivial⟩

end Draft

/-- The two texts of a sealed request: laid out as it is printed, and compact as it is posted. -/
def Request.IsSentAs (body : Bytes) (r : Request) : Prop :=
  body = Bytes.ofString (r.toSortedJson.pretty ++ "\n") ∨ body = r.toSortedJson.renderBytes

theorem Request.madeBy_of_isSentAs {body : Bytes} {r : Request} (h : r.IsSentAs body) : r.MadeBy body := by
  rcases h with rfl | rfl
  · have hread := r.portable_toSortedJson.parse_pretty
    refine ⟨_, ?_, r.writtenIn_toSortedJson⟩
    rw [Json.parseBytes, Bytes.toString?_ofString]
    exact hread
  · exact r.madeBy_toSortedJson

def Response.NotUnderstood : Response → Prop
  | .failure .invalidJson | .failure (.missingRequestField _) | .failure (.missingOperationField _)
  | .failure (.unpack _) => True
  | _ => False

namespace Dispatcher

theorem understood_perform (d : Dispatcher σ) (o : Operation) (trace : Trace) (s : σ) :
    ¬ Response.NotUnderstood (d.perform o trace s).response := by
  cases hh : d.handlers.get? o.method with
  | none =>
    rw [d.perform_of_none trace s hh]
    exact id
  | some h =>
    rw [d.perform_of_some trace s hh]
    cases (h o.parameters s).1 with
    | value v => cases v <;> exact id
    | nothing | error | breakdown => exact id

/-- Whatever is sealed for a draft is understood, and reaches the handlers as it was typed, up to the last
bracket but one: parameters may nest 127 deep where they are typed, and 126 where they are unpacked. -/
theorem sealed_draft_understood (d : Dispatcher σ) (lookup : Lookup) (draft : Draft) (f : Freshness)
    (r : Request) (k : Key) (s : σ) (hr : draft.request f = .ok r) (hkey : Key.ofBase64 draft.key = .ok k)
    (hk : lookup ⟨Text.trim draft.identity⟩ = .ok k)
    (hexact : ∀ p, draft.parameters = .ok p → Json.AllFields Json.IsExact p) :
    ∃ p, draft.parameters = .ok p ∧ (draft.params = none → p = []) ∧ (Json.object p).depth ≤ 127 ∧
      (∀ w scene, w.freshness = f →
        Command.runSeal w draft scene = scene.print w (r.toSortedJson.pretty ++ "\n")) ∧
      ∀ body, r.IsSentAs body →
        let done := (d.handle lookup (fun k e ↦ e.unpack k) body s).1
        ((Json.object p).depth ≤ 126 → ¬ Response.NotUnderstood done.response ∧
          done = d.perform ⟨draft.nonce, draft.method, p⟩ { consulted := some ⟨Text.trim draft.identity⟩ } s) ∧
        ((Json.object p).depth = 127 → done.state = s ∧
          done.response.Refuses "unknown exception while unpacking request") := by
  obtain ⟨k', p, hkey', hidentity, hp, hpack⟩ := Draft.request_eq_ok_iff.1 hr
  obtain rfl : k = k' := Except.ok.inj (hkey.symm.trans hkey')
  obtain ⟨-, hidentity⟩ := Identity.typed_eq_ok_iff.1 hidentity
  rw [← hidentity] at hk
  have htidy := Draft.tidy_parameters hp
  have hexact' := draft.exact_payload (hexact p hp)
  have hdepth := draft.depth_payload p
  refine ⟨p, hp, ?_, htidy.shallow, ?_, fun body hbody ↦ ⟨fun hshallow ↦ ?_, fun hdeep ↦ ?_⟩⟩
  · intro hnone
    rw [Draft.parameters, hnone] at hp
    exact (Except.ok.inj hp).symm
  · intro w scene hw
    rw [Command.runSeal, hw, hr]
    rfl
  · have hportable : (draft.payload p).Portable :=
      ⟨hexact', draft.ordered_payload htidy.ordered, by rw [hdepth]; exact Nat.succ_le_succ hshallow⟩
    have hdone := d.dispatch_of_sealed s (Request.madeBy_of_isSentAs hbody) hk hpack hportable
      (draft.writtenIn_payload p)
    rw [hidentity] at hdone
    refine ⟨?_, hdone⟩
    change ¬ Response.NotUnderstood (d.dispatch lookup (fun k e ↦ e.unpack k) body s).response
    rw [hdone]
    exact d.understood_perform _ _ _
  · have hreq := requestOf_eq_ok_iff.2 (Request.madeBy_of_isSentAs hbody)
    have hclosed : ¬ Opens lookup (fun k e ↦ e.unpack k) body := by
      rintro ⟨r', k', v, hr', hk', hv⟩
      obtain rfl : r = r' := Except.ok.inj (hreq.symm.trans hr')
      obtain rfl : k = k' := Except.ok.inj (hk.symm.trans hk')
      refine Envelope.unpack_ne_ok_of_pack hpack hexact' ?_ v hv
      rw [hdepth, hdeep]
      exact Nat.lt_succ_self 127
    obtain ⟨detail, hdone⟩ := d.dispatch_of_not_opens s hreq hclosed
    change (d.dispatch lookup (fun k e ↦ e.unpack k) body s).state = s ∧
      (d.dispatch lookup (fun k e ↦ e.unpack k) body s).response.Refuses _
    rw [hdone]
    exact ⟨rfl, Response.refuses_failure (.unpack detail)⟩

def nested : Nat → Json
  | 0 => .array []
  | n + 1 => .array [nested n]

theorem depth_nested (n : Nat) : (nested n).depth = n + 1 := by
  induction n with
  | zero => rfl
  | succ n ih => simp [nested, Json.depth, Json.depthItems, ih]

theorem all_nested {P : Json → Prop} (h : ∀ vs, P (.array vs)) (n : Nat) : (nested n).All P := by
  induction n with
  | zero => exact ⟨h _, trivial⟩
  | succ n ih => exact ⟨h _, ih, trivial⟩

theorem portable_nested {n : Nat} (h : n ≤ 125) : (Json.object [("a", nested n)]).Portable where
  exact := ⟨trivial, all_nested (fun _ ↦ trivial) n, trivial⟩
  ordered := ⟨List.pairwise_singleton _ _, all_nested (fun _ ↦ trivial) n, trivial⟩
  shallow := by
    simp only [Json.depth, Json.depthFields, depth_nested, Json.maxDepth]
    omega

def nestedDraft (n : Nat) : Draft where
  key := "BwcHBwcHBwcHBwcHBwcHBwcHBwcHBwcHBwcHBwcHBwc="
  identity := " cap-1 "
  method := "echo"
  params := some (Json.object [("a", nested n)]).render

theorem parameters_nestedDraft {n : Nat} (h : n ≤ 125)
    (hsize : ¬ CommandError.maxParamsBytes < (Json.object [("a", nested n)]).render.utf8ByteSize) :
    (nestedDraft n).parameters = .ok [("a", nested n)] := by
  have hportable := portable_nested h
  have hread := Json.parse_render _ hportable.exact hportable.shallow
  rw [Json.ordered_eq_self _ hportable.ordered] at hread
  simp only [Draft.parameters, nestedDraft, if_neg hsize, hread]

theorem trim_identity_nestedDraft (n : Nat) : Text.trim (nestedDraft n).identity = "cap-1" := by
  have h : Text.trim " cap-1 " = "cap-1" := by decide +kernel
  exact h

theorem key_nestedDraft (n : Nat) :
    Key.ofBase64 (nestedDraft n).key = .ok ⟨List.replicate 32 7, rfl⟩ := by
  have h : Text.trim (nestedDraft n).key = Text.Base64.encode (List.replicate 32 7) := by
    change Text.trim "BwcHBwcHBwcHBwcHBwcHBwcHBwcHBwcHBwcHBwcHBwc=" = _
    decide +kernel
  rw [Key.ofBase64, h, Text.Base64.decode?_encode]
  exact Key.ofBytes_eq_ok_iff.2 rfl

theorem exists_request_nestedDraft {n : Nat} (f : Freshness)
    (hp : (nestedDraft n).parameters = .ok [("a", nested n)])
    (hfits : Aead.fitsCounter ((nestedDraft n).payload [("a", nested n)]).renderBytes.length) :
    ∃ r, (nestedDraft n).request f = .ok r := by
  obtain ⟨e, he⟩ := Envelope.exists_pack ⟨List.replicate 32 7, rfl⟩ f hfits
  have hidentity : Identity.typed (nestedDraft n).identity = .ok ⟨"cap-1"⟩ := by
    rw [Identity.typed_eq_ok_iff, trim_identity_nestedDraft]
    exact ⟨rfl, rfl⟩
  exact ⟨⟨⟨"cap-1"⟩, e⟩, Draft.request_eq_ok_iff.2 ⟨_, _, key_nestedDraft n, hidentity, hp, he⟩⟩

/-- One bracket decides. -/
theorem sealed_draft_understood_limit : ∃ (f : Freshness) (k : Key) (r r' : Request) (d : Dispatcher Unit),
    (nestedDraft 124).request f = .ok r ∧ (nestedDraft 125).request f = .ok r' ∧
    (d.handle (fun _ ↦ .ok k) (fun k e ↦ e.unpack k) r.toSortedJson.renderBytes ()).1 =
      d.perform ⟨none, "echo", [("a", nested 124)]⟩ { consulted := some ⟨"cap-1"⟩ } () ∧
    (d.handle (fun _ ↦ .ok k) (fun k e ↦ e.unpack k) r'.toSortedJson.renderBytes ()).1.response.Refuses
      "unknown exception while unpacking request" := by
  let k : Key := ⟨List.replicate 32 7, rfl⟩
  let f : Freshness := ⟨k, List.replicate 12 1, List.replicate 12 2, rfl, rfl⟩
  let d : Dispatcher Unit := ⟨"basic", ∅, .empty⟩
  have hp := parameters_nestedDraft (n := 124) (by decide) (by decide +kernel)
  have hp' := parameters_nestedDraft (n := 125) (by decide) (by decide +kernel)
  obtain ⟨r, hr⟩ := exists_request_nestedDraft f hp (by decide +kernel)
  obtain ⟨r', hr'⟩ := exists_request_nestedDraft f hp' (by decide +kernel)
  have hexact {n : Nat} (hp : (nestedDraft n).parameters = .ok [("a", nested n)]) (q : Parameters)
      (hq : (nestedDraft n).parameters = .ok q) : Json.AllFields Json.IsExact q := by
    obtain rfl := Except.ok.inj (hp.symm.trans hq)
    exact ⟨all_nested (fun _ ↦ trivial) n, trivial⟩
  have hdepth (n : Nat) : (Json.object [("a", nested n)]).depth = n + 2 := by
    simp [Json.depth, Json.depthFields, depth_nested]
  obtain ⟨q, hq, -, -, -, hsent⟩ := sealed_draft_understood d (fun _ ↦ .ok k) _ f r k () hr
    (key_nestedDraft 124) rfl (hexact hp)
  obtain ⟨q', hq', -, -, -, hsent'⟩ := sealed_draft_understood d (fun _ ↦ .ok k) _ f r' k () hr'
    (key_nestedDraft 125) rfl (hexact hp')
  obtain rfl := Except.ok.inj (hp.symm.trans hq)
  obtain rfl := Except.ok.inj (hp'.symm.trans hq')
  have hperformed := ((hsent _ (.inr rfl)).1 (Nat.le_of_eq (hdepth 124))).2
  rw [trim_identity_nestedDraft] at hperformed
  exact ⟨f, k, r, r', d, hr, hr', hperformed, ((hsent' _ (.inr rfl)).2 (hdepth 125)).2⟩

end Dispatcher

end Gatekeeper
