import Gatekeeper.Proofs.Dispatch.Asking

namespace Gatekeeper

variable {σ : Type} {lookup : Lookup} {channel : Channel} {body : Bytes} {response : Response}

/-- An event tells the truth about a body and the response to it. -/
structure RequestEvent.Truthful (e : RequestEvent) (lookup : Lookup) (channel : Channel) (body : Bytes)
    (response : Response) : Prop where
  success : e.success ↔ ∃ bytes, response = .success bytes
  errorKind : ∀ refusal, response = .failure refusal → e.errorKind = some refusal.kind
  noError : ∀ bytes, response = .success bytes → e.errorKind = none
  requestBytes : e.requestBytes = body.length
  /-- The length is the one that stands in the head of the response, and stands there once. -/
  responseBytes : (Server.frame response).headers.filter (·.1 == "content-length") =
    [("content-length", toString e.responseBytes)]
  identified : e.fingerprint.isSome ↔
    ∃ document, Json.parseBytes body = .ok document ∧ Request.Complete document
  fingerprint : ∀ document, Json.parseBytes body = .ok document → Request.Complete document →
    ∃ name, document.field? "minted_identity" = some (.string name) ∧
      e.fingerprint = some (Text.Hex.encode (Digest.Sha256.digest (Bytes.ofString name)))
  named : e.method.isSome ↔
    ∃ v, Dispatcher.Reveals lookup channel body v ∧ Operation.Complete v
  method : ∀ v, Dispatcher.Reveals lookup channel body v → Operation.Complete v →
    ∃ name, v.field? "method_name" = some (.string name) ∧ e.method = some name
  detail : e.detail.isSome ↔ e.errorKind = some "unpack_failed" ∨
    e.errorKind = some "operation_exception" ∨
    (e.errorKind = some "invalid_json" ∧ Dispatcher.Misshapen lookup channel body)
  unparsed : ∀ fault, Json.parseBytes body = .error fault → e.detail = none

theorem Refusal.detail?_isSome_iff (r : Refusal) :
    r.detail?.isSome ↔ r.kind = "unpack_failed" ∨ r.kind = "operation_exception" := by
  cases r <;> simp [detail?, kind]

theorem Server.contentLength_frame (response : Response) :
    (frame response).headers.filter (·.1 == "content-length") =
      [("content-length", toString response.body.length)] := by
  cases response with
  | success bytes => simp [frame, Http.Response.octets, Http.Response.withBody, Response.body]
  | failure refusal => simp [frame, Http.Response.plain, Http.Response.withBody, Response.body]

namespace Dispatcher

variable {d : Dispatcher σ} {s : σ} {done : Dispatched σ}

theorem Course.fingerprint_eq_some_iff (h : d.Course lookup channel body s done) {f : String} {n : Nat} :
    (eventOf done.response done.trace n).fingerprint = some f ↔
      ∃ r : Request, r.MadeBy body ∧ f = r.identity.fingerprint := by
  change done.trace.consulted.map Identity.fingerprint = some f ↔ _
  rw [Option.map_eq_some_iff]
  constructor
  · intro ⟨i, hi, hf⟩
    obtain ⟨r, hr, rfl⟩ := h.consulted_eq_some_iff.1 hi
    exact ⟨r, hr, hf.symm⟩
  · intro ⟨r, hr, hf⟩
    exact ⟨r.identity, h.consulted_eq_some_iff.2 ⟨r, hr, rfl⟩, hf.symm⟩

theorem Course.detail_isSome_iff (h : d.Course lookup channel body s done) {n : Nat} :
    (eventOf done.response done.trace n).detail.isSome ↔
      (eventOf done.response done.trace n).errorKind = some "unpack_failed" ∨
      (eventOf done.response done.trace n).errorKind = some "operation_exception" ∨
      ((eventOf done.response done.trace n).errorKind = some "invalid_json" ∧
        Misshapen lookup channel body) := by
  cases hresponse : done.response with
  | success bytes => simp [eventOf]
  | failure refusal =>
    have hmismatch : done.trace.mismatch.isSome ↔
        refusal.kind = "invalid_json" ∧ Misshapen lookup channel body := by
      rw [← h.mismatch_isSome_iff]
      constructor
      · intro hm
        have hkind := h.response_of_mismatch hm
        rw [hresponse] at hkind
        cases hkind
        exact ⟨rfl, hm⟩
      · exact And.right
    simp [eventOf, Option.isSome_or, Refusal.detail?_isSome_iff, hmismatch, or_assoc]

theorem Course.truthful (h : d.Course lookup channel body s done) :
    (eventOf done.response done.trace body.length).Truthful lookup channel body done.response where
  success := by
    cases hresponse : done.response with
    | success bytes => exact ⟨fun _ ↦ ⟨bytes, rfl⟩, fun _ ↦ rfl⟩
    | failure refusal => exact ⟨nofun, nofun⟩
  errorKind := by
    intro refusal hresponse
    rw [hresponse]
    rfl
  noError := by
    intro bytes hresponse
    rw [hresponse]
    rfl
  requestBytes := rfl
  responseBytes := Server.contentLength_frame done.response
  identified := by
    rw [Option.isSome_iff_exists]
    constructor
    · intro ⟨f, hf⟩
      obtain ⟨r, ⟨document, hp, hw⟩, _⟩ := h.fingerprint_eq_some_iff.1 hf
      exact ⟨document, hp, Request.complete_iff.2 ⟨r, hw⟩⟩
    · intro ⟨document, hp, hc⟩
      obtain ⟨r, hw⟩ := Request.complete_iff.1 hc
      exact ⟨_, h.fingerprint_eq_some_iff.2 ⟨r, ⟨document, hp, hw⟩, rfl⟩⟩
  fingerprint := by
    intro document hp hc
    obtain ⟨r, hw⟩ := Request.complete_iff.1 hc
    exact ⟨r.identity.name, hw.identity, h.fingerprint_eq_some_iff.2 ⟨r, ⟨document, hp, hw⟩, rfl⟩⟩
  named := by
    rw [Option.isSome_iff_exists]
    constructor
    · intro ⟨m, hm⟩
      obtain ⟨v, o, hv, ho, _⟩ := h.method_eq_some_iff.1 hm
      exact ⟨v, hv, Operation.complete_iff.2 ⟨o, ho⟩⟩
    · intro ⟨v, hv, hc⟩
      obtain ⟨o, ho⟩ := Operation.complete_iff.1 hc
      exact ⟨_, h.method_eq_some_iff.2 ⟨v, o, hv, ho, rfl⟩⟩
  method := by
    intro v hv hc
    obtain ⟨o, ho⟩ := Operation.complete_iff.1 hc
    exact ⟨o.method, ho.method, h.method_eq_some_iff.2 ⟨v, o, hv, ho, rfl⟩⟩
  detail := h.detail_isSome_iff
  unparsed := by
    intro fault hp
    have hr := requestOf_of_unparsed hp
    cases h with
    | request hr' =>
      rw [hr] at hr'
      cases hr'
      rfl
    | envelope hr' | operation hr' | performed hr' =>
      rw [hr] at hr'
      cases hr'

/-- Each body is recorded in one true event, and that event is all that a server hands to its sink. -/
theorem handle_truthful :
    (∀ (d : Dispatcher σ) (lookup : Lookup) (channel : Channel) (body : Bytes) (s : σ),
      ∃ e : RequestEvent, (d.handle lookup channel body s).2 = .request e ∧
        e.Truthful lookup channel body (d.handle lookup channel body s).1.response) ∧
    ∀ (server : Server σ) (now : Nat) (body : Bytes) (state : σ) (disk : Disk),
      ∃ (e : RequestEvent) (response : Response),
        (server.process now body state disk).response = Server.frame response ∧
        e.Truthful (server.store.lookup disk) (fun k e ↦ e.unpack k) body response ∧
        ((server.process now body state disk).errors, (server.process now body state disk).disk) =
          server.audit.record now (.request e) (server.store.ask.after body disk) := by
  constructor
  · intro d lookup channel body s
    exact ⟨_, rfl, (d.course lookup channel body s).truthful⟩
  · intro server now body state disk
    rw [server.process_eq]
    exact ⟨_, _, rfl, (server.dispatcher.course _ _ body state).truthful, rfl⟩

end Dispatcher

end Gatekeeper
