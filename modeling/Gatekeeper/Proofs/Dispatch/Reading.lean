import Gatekeeper.Dispatch.Dispatcher
import Gatekeeper.Proofs.Json.RoundTrip
import Gatekeeper.Proofs.Results

namespace Gatekeeper

namespace Schema

variable {schemaPath instancePath : List String} {properties rest : List (String × Schema)}
  {fields : List (String × Json)} {name : String} {s : Schema} {v : Json}

theorem mismatchIn_nil : mismatchIn schemaPath instancePath [] fields = none := by rw [mismatchIn]

theorem mismatchIn_cons_eq_none_iff :
    mismatchIn schemaPath instancePath ((name, s) :: rest) fields = none ↔
      (∀ v, fields.lookup name = some v →
        mismatchAt (schemaPath ++ ["properties", name]) (instancePath ++ [name]) s v = none) ∧
      mismatchIn schemaPath instancePath rest fields = none := by
  rw [mismatchIn, Option.or_eq_none_iff]
  cases fields.lookup name <;> simp

theorem mismatchAt_text_eq_none_iff :
    mismatchAt schemaPath instancePath .text v = none ↔ ∃ t, v = .string t := by
  cases v <;> simp [mismatchAt]

theorem mismatchAt_object_eq_none_iff :
    mismatchAt schemaPath instancePath (.object properties) v = none ↔
      ∃ fields, v = .object fields ∧ mismatchIn schemaPath instancePath properties fields = none := by
  cases v <;> simp [mismatchAt]

mutual

theorem mismatchAt_eq_none_iff (schemaPath instancePath : List String) (s : Schema) (v : Json) :
    mismatchAt schemaPath instancePath s v = none ↔ conforms s v := by
  cases s with
  | text =>
    rw [mismatchAt_text_eq_none_iff, conforms]
    cases v <;> simp [Json.string?]
  | object properties =>
    rw [mismatchAt_object_eq_none_iff]
    cases v with
    | object fields =>
      rw [conforms, ← mismatchIn_eq_none_iff schemaPath instancePath properties fields]
      simp
    | _ => simp [conforms]

theorem mismatchIn_eq_none_iff (schemaPath instancePath : List String)
    (properties : List (String × Schema)) (fields : List (String × Json)) :
    mismatchIn schemaPath instancePath properties fields = none ↔ conformsAll properties fields := by
  cases properties with
  | nil => simp [mismatchIn_nil, conformsAll]
  | cons p rest =>
    obtain ⟨name, s⟩ := p
    rw [mismatchIn_cons_eq_none_iff, conformsAll, Bool.and_eq_true,
      mismatchIn_eq_none_iff schemaPath instancePath rest fields]
    cases fields.lookup name with
    | none => simp
    | some v => simp [mismatchAt_eq_none_iff _ _ s v]

end

end Schema

theorem asObject_eq_ok_iff {v : Json} {fields : List (String × Json)} :
    asObject v = .ok fields ↔ v = .object fields := by
  cases v <;> simp [asObject]

theorem asObject_object (fields : List (String × Json)) : asObject (.object fields) = .ok fields := rfl

theorem asText_string (t : String) : asText (.string t) = .ok t := rfl

theorem asText_eq_ok_iff {v : Json} {t : String} : asText v = .ok t ↔ v = .string t := by
  cases v <;> simp [asText]

theorem required_eq_ok_iff {missing : String → Refusal} {fields : List (String × Json)} {name : String}
    {v : Json} : required missing fields name = .ok v ↔ fields.lookup name = some v := by
  unfold required
  cases fields.lookup name <;> simp

theorem required_of_some {missing : String → Refusal} {fields : List (String × Json)} {name : String}
    {v : Json} (h : fields.lookup name = some v) : required missing fields name = .ok v :=
  required_eq_ok_iff.2 h

theorem required_of_none {missing : String → Refusal} {fields : List (String × Json)} {name : String}
    (h : fields.lookup name = none) : required missing fields name = .error (missing name) := by
  unfold required
  rw [h]

theorem field?_object (fields : List (String × Json)) (name : String) :
    (Json.object fields).field? name = fields.lookup name := rfl

theorem object_of_field? {d v : Json} {name : String} (h : d.field? name = some v) :
    ∃ fields, d = .object fields := by
  cases d with
  | object fields => exact ⟨fields, rfl⟩
  | _ => cases h

namespace Request

structure WrittenIn (r : Request) (d : Json) : Prop where
  identity : d.field? "minted_identity" = some (.string r.identity.name)
  envelope : ∃ o, d.field? "operation" = some o ∧
    o.field? "encrypted_session_key" = some (.string r.envelope.encryptedSessionKey) ∧
    o.field? "session_key_iv" = some (.string r.envelope.sessionKeyIv) ∧
    o.field? "encrypted_message" = some (.string r.envelope.encryptedMessage)

def MadeBy (r : Request) (body : Bytes) : Prop := ∃ d, Json.parseBytes body = .ok d ∧ r.WrittenIn d

theorem ofDocument_eq_ok_iff {r : Request} {d : Json} : ofDocument d = .ok r ↔ r.WrittenIn d := by
  simp only [ofDocument, bind_eq_ok_iff, asObject_eq_ok_iff, required_eq_ok_iff, asText_eq_ok_iff]
  constructor
  · rintro ⟨fields, rfl, _, hi, _, rfl, _, ho, o, rfl, _, ⟨_, hk, rfl⟩, _, ⟨_, hv, rfl⟩, _,
      ⟨_, hm, rfl⟩, hr⟩
    cases hr
    exact ⟨hi, .object o, ho, hk, hv, hm⟩
  · rintro ⟨hi, o, ho, hk, hv, hm⟩
    obtain ⟨fields, rfl⟩ := object_of_field? hi
    obtain ⟨sealed, rfl⟩ := object_of_field? hk
    exact ⟨fields, rfl, _, hi, _, rfl, _, ho, sealed, rfl, _, ⟨_, hk, rfl⟩, _, ⟨_, hv, rfl⟩, _,
      ⟨_, hm, rfl⟩, rfl⟩

theorem WrittenIn.conforms {r : Request} {d : Json} (h : r.WrittenIn d) :
    Schema.request.mismatch? d = none := by
  obtain ⟨hi, o, ho, hk, hv, hm⟩ := h
  obtain ⟨fields, rfl⟩ := object_of_field? hi
  obtain ⟨sealed, rfl⟩ := object_of_field? hk
  rw [field?_object] at hi ho hk hv hm
  simp [Schema.mismatch?, Schema.request, Schema.mismatchAt_object_eq_none_iff,
    Schema.mismatchIn_cons_eq_none_iff, Schema.mismatchAt_text_eq_none_iff, Schema.mismatchIn_nil,
    hi, ho, hk, hv, hm]

structure Complete (d : Json) : Prop where
  conforms : Schema.request.conforms d
  identity : (d.field? "minted_identity").isSome
  envelope : ∃ o, d.field? "operation" = some o ∧ (o.field? "encrypted_session_key").isSome ∧
    (o.field? "session_key_iv").isSome ∧ (o.field? "encrypted_message").isSome

theorem complete_iff {d : Json} : Complete d ↔ ∃ r : Request, r.WrittenIn d := by
  constructor
  · rintro ⟨hc, hi, o, ho, hk, hv, hm⟩
    obtain ⟨i, hi⟩ := Option.isSome_iff_exists.1 hi
    obtain ⟨key, hk⟩ := Option.isSome_iff_exists.1 hk
    obtain ⟨iv, hv⟩ := Option.isSome_iff_exists.1 hv
    obtain ⟨message, hm⟩ := Option.isSome_iff_exists.1 hm
    obtain ⟨fields, rfl⟩ := object_of_field? hi
    obtain ⟨sealed, rfl⟩ := object_of_field? hk
    rw [field?_object] at hi ho hk hv hm
    rw [← Schema.mismatchAt_eq_none_iff [] []] at hc
    simp [Schema.request, Schema.mismatchAt_object_eq_none_iff, Schema.mismatchIn_cons_eq_none_iff,
      Schema.mismatchAt_text_eq_none_iff, Schema.mismatchIn_nil, hi, ho, hk, hv, hm] at hc
    obtain ⟨⟨name, rfl⟩, ⟨message, rfl⟩, ⟨key, rfl⟩, iv, rfl⟩ := hc
    exact ⟨⟨⟨name⟩, key, iv, message⟩, hi, .object sealed, ho, hk, hv, hm⟩
  · rintro ⟨r, h⟩
    have hc : Schema.request.conforms d := (Schema.mismatchAt_eq_none_iff [] [] _ d).1 h.conforms
    obtain ⟨hi, o, ho, hk, hv, hm⟩ := h
    exact ⟨hc, by simp [hi], o, ho, by simp [hk], by simp [hv], by simp [hm]⟩

theorem madeBy_toJson (r : Request) : r.MadeBy r.toJson.renderBytes := by
  have hexact : r.toJson.All Json.IsExact := by simp [toJson, Identity.toJson, Envelope.toJson, Json.All,
    Json.AllFields, Json.IsExact]
  have hdepth : r.toJson.depth ≤ Json.maxDepth := (by decide : 2 ≤ 127)
  refine ⟨_, Json.parseBytes_renderBytes _ hexact hdepth, ?_, r.envelope.toJson.ordered, ?_, ?_, ?_, ?_⟩
  all_goals exact Json.field?_ofFields (by simp [Json.orderedFields]) _

end Request

namespace Operation

structure WrittenIn (o : Operation) (d : Json) : Prop where
  method : d.field? "method_name" = some (.string o.method)
  parameters : d.field? "parameters" = some (.object o.parameters)
  nonce : d.field? "nonce" = o.nonce.map .string

theorem ofDocument_object {fields : List (String × Json)} {nonce : Option String}
    (hn : fields.lookup "nonce" = nonce.map .string) :
    ofDocument (.object fields) = (do
      let method ← asText (← required .missingOperationField fields "method_name")
      let parameters ← asObject (← required .missingOperationField fields "parameters")
      .ok { nonce, method, parameters }) := by
  unfold ofDocument
  rw [asObject_object, ok_bind, hn]
  cases nonce <;> rfl

theorem ofDocument_eq_ok_iff {o : Operation} {d : Json} : ofDocument d = .ok o ↔ o.WrittenIn d := by
  have hrest (fields : List (String × Json)) (nonce : Option String) :
      (do
        let method ← asText (← required .missingOperationField fields "method_name")
        let parameters ← asObject (← required .missingOperationField fields "parameters")
        .ok { nonce, method, parameters } : Except Refusal Operation) = .ok o ↔
        fields.lookup "method_name" = some (.string o.method) ∧
        fields.lookup "parameters" = some (.object o.parameters) ∧ nonce = o.nonce := by
    simp only [bind_eq_ok_iff, required_eq_ok_iff, asText_eq_ok_iff, asObject_eq_ok_iff]
    constructor
    · rintro ⟨_, hm, _, rfl, _, hp, _, rfl, ho⟩
      cases ho
      exact ⟨hm, hp, rfl⟩
    · rintro ⟨hm, hp, rfl⟩
      exact ⟨_, hm, _, rfl, _, hp, _, rfl, rfl⟩
  unfold ofDocument
  rw [bind_eq_ok_iff]
  simp only [asObject_eq_ok_iff]
  constructor
  · rintro ⟨fields, rfl, h⟩
    cases hn : fields.lookup "nonce" with
    | none =>
      rw [hn] at h
      obtain ⟨hm, hp, hnonce⟩ := (hrest fields none).1 h
      exact ⟨hm, hp, by rw [field?_object, hn, ← hnonce]; rfl⟩
    | some v =>
      rw [hn] at h
      obtain ⟨n, hv, h⟩ := bind_eq_ok_iff.1 h
      obtain ⟨hm, hp, hnonce⟩ := (hrest fields n).1 h
      refine ⟨hm, hp, ?_⟩
      cases v with
      | string t =>
        cases hv
        rw [field?_object, hn, ← hnonce]
        rfl
      | _ => cases hv
  · rintro ⟨hm, hp, hn⟩
    obtain ⟨fields, rfl⟩ := object_of_field? hm
    rw [field?_object] at hm hp hn
    refine ⟨fields, rfl, ?_⟩
    rw [hn]
    cases hnonce : o.nonce with
    | none => exact (hrest fields none).2 ⟨hm, hp, hnonce.symm⟩
    | some t => exact (hrest fields (some t)).2 ⟨hm, hp, hnonce.symm⟩

theorem WrittenIn.conforms {o : Operation} {d : Json} (h : o.WrittenIn d) :
    Schema.operation.mismatch? d = none := by
  obtain ⟨hm, hp, hn⟩ := h
  obtain ⟨fields, rfl⟩ := object_of_field? hm
  rw [field?_object] at hm hp hn
  simp [Schema.mismatch?, Schema.operation, Schema.mismatchAt_object_eq_none_iff,
    Schema.mismatchIn_cons_eq_none_iff, Schema.mismatchAt_text_eq_none_iff, Schema.mismatchIn_nil,
    hm, hp, hn]

end Operation

namespace Dispatcher

theorem screen_eq_ok_iff {α : Type} {schema : Schema} {ofDocument : Json → Except Refusal α} {d : Json}
    {a : α} : screen schema ofDocument d = .ok a ↔ schema.mismatch? d = none ∧ ofDocument d = .ok a := by
  unfold screen
  cases schema.mismatch? d with
  | some v => simp
  | none => cases ofDocument d <;> simp

theorem requestOf_eq_ok_iff {body : Bytes} {r : Request} : requestOf body = .ok r ↔ r.MadeBy body := by
  unfold requestOf Request.MadeBy
  cases h : Json.parseBytes body with
  | error e => simp
  | ok d =>
    simp only [screen_eq_ok_iff, Request.ofDocument_eq_ok_iff, Except.ok.injEq, exists_eq_left']
    exact ⟨And.right, fun h ↦ ⟨h.conforms, h⟩⟩

theorem operationOf_eq_ok_iff {plaintext : Json} {o : Operation} :
    operationOf plaintext = .ok o ↔ o.WrittenIn plaintext := by
  rw [operationOf, screen_eq_ok_iff, Operation.ofDocument_eq_ok_iff]
  exact ⟨And.right, fun h ↦ ⟨h.conforms, h⟩⟩

end Dispatcher

end Gatekeeper
