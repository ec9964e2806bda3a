import Gatekeeper.Proofs.Dispatch.Pipeline

namespace Gatekeeper

namespace Operation

structure Complete (d : Json) : Prop where
  conforms : Schema.operation.conforms d
  method : (d.field? "method_name").isSome
  parameters : (d.field? "parameters").isSome

theorem complete_iff {d : Json} : Complete d ↔ ∃ o : Operation, o.WrittenIn d := by
  constructor
  · intro h
    obtain ⟨hc, hm, hp⟩ := h
    obtain ⟨method, hm⟩ := Option.isSome_iff_exists.1 hm
    obtain ⟨parameters, hp⟩ := Option.isSome_iff_exists.1 hp
    obtain ⟨fields, rfl⟩ := object_of_field? hm
    rw [field?_object] at hm hp
    rw [← Schema.mismatchAt_eq_none_iff [] []] at hc
    simp only [Schema.operation, Schema.mismatchAt_object_eq_none_iff, Schema.mismatchIn_cons_eq_none_iff,
      Schema.mismatchAt_text_eq_none_iff, Schema.mismatchIn_nil, Json.object.injEq, exists_eq_left', hm, hp,
      Option.some.injEq, forall_eq', and_true] at hc
    obtain ⟨⟨method, rfl⟩, hn, parameters, rfl⟩ := hc
    -- A nonce may be missing, but where there is one it is a text.
    cases hnonce : fields.lookup "nonce" with
    | none => exact ⟨⟨none, method, parameters⟩, hm, hp, hnonce⟩
    | some v =>
      obtain ⟨nonce, rfl⟩ := hn v hnonce
      exact ⟨⟨some nonce, method, parameters⟩, hm, hp, hnonce⟩
  · intro ho
    obtain ⟨o, h⟩ := ho
    have hc : Schema.operation.conforms d := (Schema.mismatchAt_eq_none_iff [] [] _ d).1 h.conforms
    exact ⟨hc, by simp [h.method], by simp [h.parameters]⟩

end Operation

namespace Dispatcher

variable {σ α : Type} {lookup : Lookup} {channel : Channel} {body : Bytes}

/-- The body makes a request whose identity has a key, under which its envelope opens to a plaintext. -/
def Reveals (lookup : Lookup) (channel : Channel) (body : Bytes) (v : Json) : Prop :=
  ∃ (r : Request) (k : Key), r.MadeBy body ∧ lookup r.identity = .ok k ∧ channel k r.envelope = .ok v

theorem reveals_iff {r : Request} {v : Json} (hr : requestOf body = .ok r) :
    Reveals lookup channel body v ↔ plaintextOf lookup channel r = .ok v := by
  rw [plaintextOf_eq_ok_iff]
  constructor
  · intro ⟨r', k, hr', hk, hopen⟩
    have hsame := requestOf_eq_ok_iff.2 hr'
    rw [hr] at hsame
    cases hsame
    exact ⟨k, hk, hopen⟩
  · intro ⟨k, hk, hopen⟩
    exact ⟨r, k, requestOf_eq_ok_iff.1 hr, hk, hopen⟩

theorem not_reveals {v : Json} {e : Refusal × Option Schema.Mismatch} (hr : requestOf body = .error e) :
    ¬ Reveals lookup channel body v := by
  intro ⟨r, k, hr', _, _⟩
  rw [requestOf_eq_ok_iff.2 hr'] at hr
  cases hr

inductive Misshapen (lookup : Lookup) (channel : Channel) (body : Bytes) : Prop
  | outer {document : Json} : Json.parseBytes body = .ok document → ¬ Schema.request.conforms document →
    Misshapen lookup channel body
  | inner {v : Json} : Reveals lookup channel body v → ¬ Schema.operation.conforms v →
    Misshapen lookup channel body

theorem mismatch?_isSome_iff {schema : Schema} {document : Json} :
    (schema.mismatch? document).isSome ↔ ¬ schema.conforms document := by
  rw [← Schema.mismatchAt_eq_none_iff [] []]
  exact Option.isSome_iff_ne_none

theorem screen_eq_error {schema : Schema} {ofDocument : Json → Except Refusal α} {document : Json}
    {refusal : Refusal} {mismatch : Option Schema.Mismatch}
    (h : screen schema ofDocument document = .error (refusal, mismatch)) :
    (mismatch.isSome ↔ ¬ schema.conforms document) ∧ (mismatch.isSome → refusal = .invalidJson) := by
  unfold screen at h
  cases hv : schema.mismatch? document with
  | some v =>
    rw [hv] at h
    cases h
    have hc : ¬ schema.conforms document := mismatch?_isSome_iff.1 (by rw [hv]; rfl)
    exact ⟨⟨fun _ ↦ hc, fun _ ↦ rfl⟩, fun _ ↦ rfl⟩
  | none =>
    have hc : schema.conforms document := (Schema.mismatchAt_eq_none_iff [] [] _ _).1 hv
    cases ho : ofDocument document with
    | ok a =>
      simp only [hv, ho] at h
      cases h
    | error e =>
      simp only [hv, ho] at h
      cases h
      exact ⟨⟨nofun, fun hn ↦ absurd hc hn⟩, nofun⟩

theorem requestOf_of_unparsed {fault : Json.Fault} (h : Json.parseBytes body = .error fault) :
    requestOf body = .error (.invalidJson, none) := by
  simp only [requestOf, h]

theorem requestOf_of_parsed {document : Json} (h : Json.parseBytes body = .ok document) :
    requestOf body = screen .request Request.ofDocument document := by
  simp only [requestOf, h]

theorem misshapen_iff_of_request {r : Request} (hr : requestOf body = .ok r) :
    Misshapen lookup channel body ↔
      ∃ v, plaintextOf lookup channel r = .ok v ∧ ¬ Schema.operation.conforms v := by
  constructor
  · intro hm
    cases hm with
    | outer hp hc =>
      obtain ⟨document, hp', hw⟩ := requestOf_eq_ok_iff.1 hr
      rw [hp] at hp'
      cases hp'
      exact absurd (Request.complete_iff.2 ⟨r, hw⟩).conforms hc
    | inner hv hc => exact ⟨_, (reveals_iff hr).1 hv, hc⟩
  · intro ⟨v, hv, hc⟩
    exact .inner ((reveals_iff hr).2 hv) hc

theorem misshapen_iff_of_not_request {e : Refusal × Option Schema.Mismatch} (hr : requestOf body = .error e) :
    Misshapen lookup channel body ↔
      ∃ document, Json.parseBytes body = .ok document ∧ ¬ Schema.request.conforms document := by
  constructor
  · intro hm
    cases hm with
    | outer hp hc => exact ⟨_, hp, hc⟩
    | inner hv _ => exact absurd hv (not_reveals hr)
  · intro ⟨document, hp, hc⟩
    exact .outer hp hc

/-- Where a body ends up, and what is done with it there. -/
inductive Course (d : Dispatcher σ) (lookup : Lookup) (channel : Channel) (body : Bytes) (s : σ) :
    Dispatched σ → Prop
  | request {refusal : Refusal} {mismatch : Option Schema.Mismatch} :
    requestOf body = .error (refusal, mismatch) →
    Course d lookup channel body s ⟨.failure refusal, { mismatch }, s⟩
  | envelope {r : Request} {detail : String} :
    requestOf body = .ok r → plaintextOf lookup channel r = .error (.unpack detail) →
    Course d lookup channel body s ⟨.failure (.unpack detail), { consulted := some r.identity }, s⟩
  | operation {r : Request} {v : Json} {refusal : Refusal} {mismatch : Option Schema.Mismatch} :
    requestOf body = .ok r → plaintextOf lookup channel r = .ok v →
    operationOf v = .error (refusal, mismatch) →
    Course d lookup channel body s ⟨.failure refusal, { consulted := some r.identity, mismatch }, s⟩
  | performed {r : Request} {v : Json} {o : Operation} :
    requestOf body = .ok r → plaintextOf lookup channel r = .ok v → operationOf v = .ok o →
    Course d lookup channel body s (d.perform o { consulted := some r.identity } s)

theorem course (d : Dispatcher σ) (lookup : Lookup) (channel : Channel) (body : Bytes) (s : σ) :
    d.Course lookup channel body s (d.dispatch lookup channel body s) := by
  cases hr : requestOf body with
  | error e =>
    rw [dispatch_of_not_request d lookup channel s hr]
    exact .request hr
  | ok r =>
    cases hv : plaintextOf lookup channel r with
    | error refusal =>
      obtain ⟨detail, rfl⟩ := plaintextOf_eq_error hv
      simp only [dispatch_eq, hr, hv]
      exact .envelope hr hv
    | ok v =>
      cases ho : operationOf v with
      | error e =>
        rw [d.dispatch_of_not_operation s hr hv ho]
        exact .operation hr hv ho
      | ok o =>
        rw [d.dispatch_of_operation s hr hv ho]
        exact .performed hr hv ho

theorem perform_trace (d : Dispatcher σ) (o : Operation) (trace : Trace) (s : σ) :
    (d.perform o trace s).trace.consulted = trace.consulted ∧
      (d.perform o trace s).trace.mismatch = trace.mismatch ∧
      (d.perform o trace s).trace.method = some o.method := by
  cases hh : d.handlers.get? o.method with
  | none =>
    rw [d.perform_of_none trace s hh]
    exact ⟨rfl, rfl, rfl⟩
  | some h =>
    rw [d.perform_of_some trace s hh]
    exact ⟨rfl, rfl, rfl⟩

namespace Course

variable {d : Dispatcher σ} {s : σ} {done : Dispatched σ}

theorem consulted_eq_some_iff (h : d.Course lookup channel body s done) {i : Identity} :
    done.trace.consulted = some i ↔ ∃ r : Request, r.MadeBy body ∧ r.identity = i := by
  simp only [← requestOf_eq_ok_iff]
  cases h with
  | request hr => simp [hr]
  | envelope hr hv => simp [hr]
  | operation hr hv ho => simp [hr]
  | performed hr hv ho => simp [hr, d.perform_trace]

theorem method_eq_some_iff (h : d.Course lookup channel body s done) {m : String} :
    done.trace.method = some m ↔
      ∃ (v : Json) (o : Operation), Reveals lookup channel body v ∧ o.WrittenIn v ∧ o.method = m := by
  simp only [← operationOf_eq_ok_iff]
  cases h with
  | request hr => simp [not_reveals hr]
  | envelope hr hv => simp [reveals_iff hr, hv]
  | operation hr hv ho => simp [reveals_iff hr, hv, ho]
  | performed hr hv ho => simp [reveals_iff hr, hv, ho, d.perform_trace]

theorem mismatch_isSome_iff (h : d.Course lookup channel body s done) :
    done.trace.mismatch.isSome ↔ Misshapen lookup channel body := by
  cases h with
  | @request refusal mismatch hr =>
    rw [misshapen_iff_of_not_request hr]
    cases hp : Json.parseBytes body with
    | error fault =>
      rw [requestOf_of_unparsed hp] at hr
      cases hr
      simp
    | ok document =>
      rw [requestOf_of_parsed hp] at hr
      simpa using (screen_eq_error hr).1
  | envelope hr hv => simp [misshapen_iff_of_request hr, hv]
  | operation hr hv ho => simpa [misshapen_iff_of_request hr, hv] using (screen_eq_error ho).1
  | performed hr hv ho =>
    have hc := (Operation.complete_iff.2 ⟨_, operationOf_eq_ok_iff.1 ho⟩).conforms
    simp [misshapen_iff_of_request hr, hv, hc, d.perform_trace]

theorem response_of_mismatch (h : d.Course lookup channel body s done) (hm : done.trace.mismatch.isSome) :
    done.response = .failure .invalidJson := by
  cases h with
  | request hr =>
    cases hp : Json.parseBytes body with
    | error fault =>
      rw [requestOf_of_unparsed hp] at hr
      cases hr
      rfl
    | ok document =>
      rw [requestOf_of_parsed hp] at hr
      rw [(screen_eq_error hr).2 hm]
  | envelope hr hv => cases hm
  | operation hr hv ho => rw [(screen_eq_error ho).2 hm]
  | performed hr hv ho =>
    rw [(d.perform_trace _ _ s).2.1] at hm
    cases hm

end Course

end Dispatcher

end Gatekeeper
