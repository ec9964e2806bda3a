import Gatekeeper.Proofs.Dispatch.Asking

namespace Gatekeeper.Dispatcher

variable {σ τ : Type} {body : Bytes}

def reply (d : Dispatcher σ) (lookup : Lookup) (body : Bytes) (s : σ) : Http.Response :=
  Server.frame (d.handle lookup (fun k e ↦ e.unpack k) body s).1.response

theorem process_response (s : Server σ) (now : Nat) (body : Bytes) (state : σ) (disk : Disk) :
    (s.process now body state disk).response = s.dispatcher.reply (s.store.lookup disk) body state := by
  rw [Server.process_eq]
  rfl

def unopened : Http.Response := .plain 400 "unknown exception while unpacking request"

def Closed (lookup : Lookup) (body : Bytes) : Prop := ¬ Opens lookup (fun k e ↦ e.unpack k) body

variable {lookup : Lookup}

theorem closed_iff {r : Request} (hr : requestOf body = .ok r) : Closed lookup body ↔
    (∃ e, lookup r.identity = .error e) ∨
      ∃ k e, lookup r.identity = .ok k ∧ r.envelope.unpack k = .error e := by
  have hopens : Opens lookup (fun k e ↦ e.unpack k) body ↔
      ∃ k v, lookup r.identity = .ok k ∧ r.envelope.unpack k = .ok v := by
    constructor
    · rintro ⟨r', k, v, hr', hk, hv⟩
      obtain rfl : r = r' := Except.ok.inj (hr.symm.trans hr')
      exact ⟨k, v, hk, hv⟩
    · rintro ⟨k, v, hk, hv⟩
      exact ⟨r, k, v, hr, hk, hv⟩
  rw [Closed, hopens]
  cases hk : lookup r.identity with
  | error e => simp
  | ok k => cases hv : r.envelope.unpack k <;> simp [hv]

theorem reply_of_closed {r : Request} (d : Dispatcher σ) (s : σ) (hr : requestOf body = .ok r)
    (h : Closed lookup body) : d.reply lookup body s = unopened := by
  obtain ⟨detail, hd⟩ := d.dispatch_of_not_opens s hr h
  have hmessage := Refusal.publicMessage_eq_message (.unpack detail)
  rw [reply, handle_eq, hd]
  exact congrArg (Http.Response.plain 400) hmessage

theorem reply_of_not_request {refusal : Refusal} {mismatch : Option Schema.Mismatch} (d : Dispatcher σ)
    (lookup : Lookup) (s : σ) (h : requestOf body = .error (refusal, mismatch)) :
    d.reply lookup body s = .plain 400 refusal.publicMessage := by
  rw [reply, handle_eq, dispatch_of_not_request d lookup _ s h]
  rfl

/-- Two runs in which a body is not opened end with one response, and there is only one such response
for all bodies that are complete requests. -/
theorem closed_indistinguishable :
    (∀ (d₁ : Dispatcher σ) (d₂ : Dispatcher τ) (lookup₁ lookup₂ : Lookup) (body : Bytes) (s₁ : σ) (s₂ : τ),
      Closed lookup₁ body → Closed lookup₂ body →
        d₁.reply lookup₁ body s₁ = d₂.reply lookup₂ body s₂) ∧
    ∀ (d : Dispatcher σ) (lookup : Lookup) (body : Bytes) (s : σ) (document : Json),
      Json.parseBytes body = .ok document → Request.Complete document → Closed lookup body →
        d.reply lookup body s = unopened := by
  constructor
  · intro d₁ d₂ lookup₁ lookup₂ body s₁ s₂ h₁ h₂
    cases hr : requestOf body with
    | ok r => rw [reply_of_closed d₁ s₁ hr h₁, reply_of_closed d₂ s₂ hr h₂]
    | error e => rw [reply_of_not_request d₁ lookup₁ s₁ hr, reply_of_not_request d₂ lookup₂ s₂ hr]
  · intro d lookup body s document hd hc hclosed
    obtain ⟨r, hr⟩ := Request.complete_iff.1 hc
    exact reply_of_closed d s (requestOf_eq_ok_iff.2 ⟨document, hd, hr⟩) hclosed

/-- An unknown identity and a store that fails, asked for two requests with nothing in their envelopes. -/
theorem closed_indistinguishable_unknown : ∃ (d : Dispatcher Unit) (first second : Request)
    (unknown broken : Lookup), first.identity ≠ second.identity ∧
      unknown first.identity = .error (.notFound first.identity.name) ∧
      broken second.identity = .error (.backend "disk I/O error") ∧
      d.reply unknown first.toJson.renderBytes () = d.reply broken first.toJson.renderBytes () ∧
      d.reply unknown first.toJson.renderBytes () = d.reply broken second.toJson.renderBytes () := by
  let first : Request := ⟨⟨"a"⟩, ⟨"", "", ""⟩⟩
  let second : Request := ⟨⟨"b"⟩, ⟨"", "", ""⟩⟩
  let d : Dispatcher Unit := ⟨"basic", ∅, .empty⟩
  let unknown : Lookup := fun i ↦ .error (.notFound i.name)
  let broken : Lookup := fun _ ↦ .error (.backend "disk I/O error")
  have hunknown (body : Bytes) : Closed unknown body := by
    rintro ⟨r, k, v, -, hk, -⟩
    cases hk
  have hbroken (body : Bytes) : Closed broken body := by
    rintro ⟨r, k, v, -, hk, -⟩
    cases hk
  obtain ⟨hstores, hrequests⟩ := closed_indistinguishable (σ := Unit) (τ := Unit)
  have hreply (r : Request) (lookup : Lookup) (hclosed : Closed lookup r.toJson.renderBytes) :
      d.reply lookup r.toJson.renderBytes () = unopened := by
    obtain ⟨document, hd, hw⟩ := r.madeBy_toJson
    exact hrequests d lookup _ () document hd (Request.complete_iff.2 ⟨r, hw⟩) hclosed
  refine ⟨d, first, second, unknown, broken, by decide, rfl, rfl, ?_, ?_⟩
  · exact hstores d d unknown broken _ () () (hunknown _) (hbroken _)
  · rw [hreply first unknown (hunknown _), hreply second broken (hbroken _)]

end Gatekeeper.Dispatcher
