import Gatekeeper.Proofs.Dispatch.Reading
import Gatekeeper.Proofs.Json.Records
import Gatekeeper.Proofs.Json.RoundTrip

namespace Gatekeeper

open Json (shaped)

namespace Json

variable {α : Type} {v w : Json} {fs : List (String × Json)} {fields : List (Field × Shape)} {k name t : String}

def IsUnrepeated (t : String) : Prop := ∃ v, IsTextOf t v ∧ v.All HasDistinctNames

theorem string?_eq_some_iff : v.string? = some t ↔ v = .string t := by
  cases v <;> simp [string?]

theorem object?_eq_some_iff : v.object? = some fs ↔ v = .object fs := by
  cases v <;> simp [object?]

/-- What an unrepeated text is read as, and what every reader of a shape makes of it, comes from one value. -/
theorem IsUnrepeated.exists_written {d : Json} (h : IsUnrepeated t) (hd : parse t = .ok d) :
    ∃ v, v.All HasDistinctNames ∧ d = v.ordered ∧ ∀ s, slack s ≤ 16 → readAll s t.toList = shaped s v := by
  obtain ⟨v, hv, hdistinct⟩ := h
  rw [hv.parse] at hd
  obtain ⟨hdepth, hvalue⟩ := within_eq_ok_iff.1 hd
  exact ⟨v, hdistinct, hvalue, fun s hslack ↦ readAll_eq_shaped hv hdepth hslack⟩

theorem decode_eq_ok_iff_shaped {s : Shape} {ofRecord? : Json → Option α} {a : α}
    (h : readAll s t.toList = shaped s v) :
    decode s ofRecord? t = .ok a ↔ ∃ w, shaped s v = .ok w ∧ ofRecord? w = some a := by
  rw [decode, h]
  cases shaped s v with
  | error e => simp
  | ok w => cases hw : ofRecord? w <;> simp [hw]

theorem shaped_text_eq_ok_iff : shaped .text v = .ok w ↔ ∃ t, v = .string t ∧ w = .string t := by
  cases v <;> simp [shaped, fits, eq_comm]

theorem shaped_table_eq_ok_iff :
    shaped .table v = .ok w ↔ ∃ fs, v = .object fs ∧ w = (Json.object fs).ordered := by
  cases v <;> simp [shaped, fits, eq_comm]

theorem shaped_optional_text_eq_ok_iff : shaped (.optional .text) v = .ok w ↔
    v = .null ∧ w = .null ∨ ∃ t, v = .string t ∧ w = .string t := by
  rw [shaped]
  split
  next hnull =>
    obtain rfl := isNull_iff.1 hnull
    simp [eq_comm]
  next hnull =>
    have hne : v ≠ .null := mt isNull_iff.2 hnull
    simp [shaped_text_eq_ok_iff, hne]

theorem field?_eq_string_iff (hplain : Shape.IsPlain fields) (h : shaped (.record fields) (.object fs) = .ok w)
    (hf : requiredText name ∈ fields) :
    w.field? name = some (.string t) ↔ fs.lookup name = some (.string t) := by
  have hsome : w.field? name = some (.string t) ↔ ∃ v, fs.lookup name = some v ∧ shaped .text v = .ok (.string t) :=
    field?_eq_some_iff hplain h hf
  rw [hsome]
  constructor
  · rintro ⟨v, hv, htext⟩
    obtain ⟨t', rfl, heq⟩ := shaped_text_eq_ok_iff.1 htext
    rw [hv, heq]
  · intro hv
    exact ⟨_, hv, rfl⟩

end Json

open Json

namespace Envelope

variable {e : Envelope} {v w : Json} {es : List (String × Json)}

theorem isPlain_fields : Shape.IsPlain [requiredText "encrypted_session_key", requiredText "session_key_iv",
    requiredText "encrypted_message"] := ⟨by simp [requiredText], by decide⟩

structure StandsIn (e : Envelope) (v : Json) : Prop where
  encryptedSessionKey : v.field? "encrypted_session_key" = some (.string e.encryptedSessionKey)
  sessionKeyIv : v.field? "session_key_iv" = some (.string e.sessionKeyIv)
  encryptedMessage : v.field? "encrypted_message" = some (.string e.encryptedMessage)

theorem ofRecord?_eq_some_iff : ofRecord? v = some e ↔ e.StandsIn v := by
  simp only [ofRecord?, Option.bind_eq_bind, Option.bind_eq_some_iff, string?_eq_some_iff]
  constructor
  · rintro ⟨_, hkey, _, rfl, _, hiv, _, rfl, _, hmessage, _, rfl, he⟩
    cases he
    exact ⟨hkey, hiv, hmessage⟩
  · rintro ⟨hkey, hiv, hmessage⟩
    exact ⟨_, hkey, _, rfl, _, hiv, _, rfl, _, hmessage, _, rfl, rfl⟩

theorem standsIn_ordered (hv : v.All HasDistinctNames) : e.StandsIn v.ordered ↔ e.StandsIn v := by
  constructor
  · rintro ⟨hkey, hiv, hmessage⟩
    rw [field?_ordered_eq_string_iff hv] at hkey hiv hmessage
    exact ⟨hkey, hiv, hmessage⟩
  · rintro ⟨hkey, hiv, hmessage⟩
    rw [← field?_ordered_eq_string_iff hv] at hkey hiv hmessage
    exact ⟨hkey, hiv, hmessage⟩

theorem standsIn_shaped (h : shaped shape (.object es) = .ok w) : e.StandsIn w ↔ e.StandsIn (.object es) := by
  have hkey := field?_eq_string_iff (t := e.encryptedSessionKey) isPlain_fields h List.mem_cons_self
  have hiv := field?_eq_string_iff (t := e.sessionKeyIv) isPlain_fields h (.tail _ (.head _))
  have hmessage := field?_eq_string_iff (t := e.encryptedMessage) isPlain_fields h (.tail _ (.tail _ (.head _)))
  constructor
  · rintro ⟨h₁, h₂, h₃⟩
    exact ⟨hkey.1 h₁, hiv.1 h₂, hmessage.1 h₃⟩
  · rintro ⟨h₁, h₂, h₃⟩
    exact ⟨hkey.2 h₁, hiv.2 h₂, hmessage.2 h₃⟩

theorem exists_shaped (hv : (Json.object es).All HasDistinctNames) (h : e.StandsIn (.object es)) :
    ∃ w, shaped shape (.object es) = .ok w ∧ e.StandsIn w := by
  obtain ⟨hkey, hiv, hmessage⟩ := h
  have hsuits : ∀ f ∈ [requiredText "encrypted_session_key", requiredText "session_key_iv",
      requiredText "encrypted_message"], Suits es f := by
    simp only [List.forall_mem_cons]
    exact ⟨.inl ⟨_, _, hkey, rfl⟩, .inl ⟨_, _, hiv, rfl⟩, .inl ⟨_, _, hmessage, rfl⟩, nofun⟩
  obtain ⟨w, hw⟩ := exists_shaped_record isPlain_fields hv.1 hsuits
  exact ⟨w, hw, (standsIn_shaped hw).2 ⟨hkey, hiv, hmessage⟩⟩

end Envelope

namespace Request

variable {r : Request} {v w : Json} {fs : List (String × Json)}

theorem isPlain_fields : Shape.IsPlain [requiredText "minted_identity",
    ({ name := "operation", required := true }, Envelope.shape)] := ⟨by simp [requiredText], by decide⟩

theorem writtenIn_iff : r.WrittenIn v ↔ v.field? "minted_identity" = some (.string r.identity.name) ∧
    ∃ o, v.field? "operation" = some o ∧ r.envelope.StandsIn o := by
  constructor
  · rintro ⟨hi, o, ho, hk, hv, hm⟩
    exact ⟨hi, o, ho, hk, hv, hm⟩
  · rintro ⟨hi, o, ho, hk, hv, hm⟩
    exact ⟨hi, o, ho, hk, hv, hm⟩

theorem ofRecord?_eq_some_iff : ofRecord? v = some r ↔ r.WrittenIn v := by
  simp only [ofRecord?, Option.bind_eq_bind, Option.bind_eq_some_iff, string?_eq_some_iff,
    Envelope.ofRecord?_eq_some_iff, writtenIn_iff]
  constructor
  · rintro ⟨_, hi, _, rfl, o, ho, e, he, hr⟩
    cases hr
    exact ⟨hi, o, ho, he⟩
  · rintro ⟨hi, o, ho, he⟩
    exact ⟨_, hi, _, rfl, o, ho, _, he, rfl⟩

theorem writtenIn_ordered (hv : v.All HasDistinctNames) : r.WrittenIn v.ordered ↔ r.WrittenIn v := by
  rw [writtenIn_iff, writtenIn_iff, field?_ordered_eq_string_iff hv]
  simp only [field?_ordered hv, Option.map_eq_some_iff]
  refine and_congr_right fun hi ↦ ?_
  constructor
  · rintro ⟨_, ⟨o, ho, rfl⟩, he⟩
    exact ⟨o, ho, (Envelope.standsIn_ordered (hv.field? ho)).1 he⟩
  · rintro ⟨o, ho, he⟩
    exact ⟨_, ⟨o, ho, rfl⟩, (Envelope.standsIn_ordered (hv.field? ho)).2 he⟩

theorem writtenIn_shaped {es : List (String × Json)} (h : shaped shape (.object fs) = .ok w)
    (ho : fs.lookup "operation" = some (.object es)) : r.WrittenIn w ↔ r.WrittenIn (.object fs) := by
  have hmem : ({ name := "operation", required := true }, Envelope.shape) ∈ [requiredText "minted_identity",
    ({ name := "operation", required := true }, Envelope.shape)] := .tail _ (.head _)
  obtain ⟨u, hu⟩ : ∃ u, w.field? "operation" = some u := by
    refine Option.ne_none_iff_exists'.1 fun hnone ↦ ?_
    have hlookup : fs.lookup "operation" = none := (field?_eq_none_iff isPlain_fields h hmem).1 hnone
    rw [ho] at hlookup
    cases hlookup
  obtain ⟨v, hv, hshaped⟩ := (field?_eq_some_iff isPlain_fields h hmem).1 hu
  obtain rfl := Option.some.inj (ho.symm.trans hv)
  rw [writtenIn_iff, writtenIn_iff, field?_eq_string_iff isPlain_fields h List.mem_cons_self, hu]
  simp only [field?_object, ho, Option.some.injEq, exists_eq_left', Envelope.standsIn_shaped hshaped]

theorem exists_shaped (hv : (Json.object fs).All HasDistinctNames) (h : r.WrittenIn (.object fs)) :
    ∃ w, shaped shape (.object fs) = .ok w ∧ r.WrittenIn w := by
  obtain ⟨hi, o, ho, he⟩ := writtenIn_iff.1 h
  obtain ⟨es, rfl⟩ := object_of_field? he.encryptedSessionKey
  obtain ⟨u, hu, -⟩ := Envelope.exists_shaped (hv.field? ho) he
  have hsuits : ∀ f ∈ [requiredText "minted_identity",
      ({ name := "operation", required := true }, Envelope.shape)], Suits fs f := by
    simp only [List.forall_mem_cons]
    exact ⟨.inl ⟨_, _, hi, rfl⟩, .inl ⟨_, _, ho, hu⟩, nofun⟩
  obtain ⟨w, hw⟩ := exists_shaped_record isPlain_fields hv.1 hsuits
  exact ⟨w, hw, (writtenIn_shaped hw ho).2 h⟩

end Request

namespace Operation

variable {o : Operation} {v w : Json} {fs : List (String × Json)}

theorem isPlain_fields : Shape.IsPlain [({ name := "nonce" }, .optional .text), requiredText "method_name",
    ({ name := "parameters", required := true }, .table)] := ⟨by simp [requiredText], by decide⟩

theorem ofRecord?_eq_some_iff : ofRecord? v = some o ↔ v.field? "method_name" = some (.string o.method) ∧
    v.field? "parameters" = some (.object o.parameters) ∧ (v.field? "nonce").bind string? = o.nonce := by
  simp only [ofRecord?, Option.bind_eq_bind, Option.bind_eq_some_iff, string?_eq_some_iff, object?_eq_some_iff]
  constructor
  · rintro ⟨_, hm, _, rfl, _, hp, _, rfl, ho⟩
    cases ho
    exact ⟨hm, hp, rfl⟩
  · rintro ⟨hm, hp, hn⟩
    exact ⟨_, hm, _, rfl, _, hp, _, rfl, by rw [hn]⟩

theorem writtenIn_ordered (hv : v.All HasDistinctNames) : o.WrittenIn v.ordered ↔
    v.field? "method_name" = some (.string o.method) ∧
    (∃ ps, v.field? "parameters" = some (.object ps) ∧ (Json.object ps).ordered = .object o.parameters) ∧
    v.field? "nonce" = o.nonce.map .string := by
  have hparameters : v.ordered.field? "parameters" = some (.object o.parameters) ↔
      ∃ ps, v.field? "parameters" = some (.object ps) ∧ (Json.object ps).ordered = .object o.parameters := by
    rw [field?_ordered hv, Option.map_eq_some_iff]
    constructor
    · rintro ⟨p, hp, heq⟩
      obtain ⟨ps, rfl⟩ := exists_object_of_ordered heq
      exact ⟨ps, hp, heq⟩
    · rintro ⟨ps, hp, heq⟩
      exact ⟨_, hp, heq⟩
  have hnonce : v.ordered.field? "nonce" = o.nonce.map .string ↔ v.field? "nonce" = o.nonce.map .string := by
    cases o.nonce with
    | none => rw [field?_ordered hv, Option.map_none, Option.map_eq_none_iff]
    | some t => exact field?_ordered_eq_string_iff hv
  rw [← field?_ordered_eq_string_iff hv, ← hparameters, ← hnonce]
  constructor
  · rintro ⟨hm, hp, hn⟩
    exact ⟨hm, hp, hn⟩
  · rintro ⟨hm, hp, hn⟩
    exact ⟨hm, hp, hn⟩

theorem parameters_shaped (h : shaped shape (.object fs) = .ok w) :
    w.field? "parameters" = some (.object o.parameters) ↔
      ∃ ps, fs.lookup "parameters" = some (.object ps) ∧ (Json.object ps).ordered = .object o.parameters := by
  have hsome : w.field? "parameters" = some (.object o.parameters) ↔
      ∃ v, fs.lookup "parameters" = some v ∧ shaped .table v = .ok (.object o.parameters) :=
    field?_eq_some_iff isPlain_fields h (.tail _ (.tail _ (.head _)))
  simp only [hsome, shaped_table_eq_ok_iff]
  constructor
  · rintro ⟨_, hp, ps, rfl, heq⟩
    exact ⟨ps, hp, heq.symm⟩
  · rintro ⟨ps, hp, heq⟩
    exact ⟨_, hp, ps, rfl, heq.symm⟩

/-- A nonce that is null is no nonce for who decodes. -/
theorem nonce_shaped (h : shaped shape (.object fs) = .ok w) : (w.field? "nonce").bind string? = o.nonce ↔
    fs.lookup "nonce" = o.nonce.map .string ∨ fs.lookup "nonce" = some .null ∧ o.nonce = none := by
  have hsome {u : Json} : w.field? "nonce" = some u ↔
      ∃ v, fs.lookup "nonce" = some v ∧ shaped (.optional .text) v = .ok u :=
    field?_eq_some_iff isPlain_fields h List.mem_cons_self
  have hnone : w.field? "nonce" = none ↔ fs.lookup "nonce" = none :=
    field?_eq_none_iff isPlain_fields h List.mem_cons_self
  cases hu : w.field? "nonce" with
  | none =>
    rw [hnone.1 hu]
    cases o.nonce <;> simp
  | some u =>
    obtain ⟨v, hv, hshaped⟩ := hsome.1 hu
    rw [hv]
    rcases shaped_optional_text_eq_ok_iff.1 hshaped with ⟨rfl, rfl⟩ | ⟨t, rfl, rfl⟩
    · cases o.nonce <;> simp [string?]
    · cases o.nonce <;> simp [string?]

theorem exists_shaped (hfs : (fs.map Prod.fst).Nodup)
    (hm : fs.lookup "method_name" = some (.string o.method))
    (hp : ∃ ps, fs.lookup "parameters" = some (.object ps)) (hn : fs.lookup "nonce" = o.nonce.map .string) :
    ∃ w, shaped shape (.object fs) = .ok w := by
  obtain ⟨ps, hp⟩ := hp
  have hnonce : Suits fs ({ name := "nonce" }, .optional .text) := by
    cases hnonce : o.nonce with
    | none =>
      rw [hnonce] at hn
      exact .inr ⟨hn, rfl⟩
    | some t =>
      rw [hnonce] at hn
      exact .inl ⟨_, _, hn, rfl⟩
  refine exists_shaped_record isPlain_fields hfs ?_
  simp only [List.forall_mem_cons]
  exact ⟨hnonce, .inl ⟨_, _, hm, rfl⟩, .inl ⟨_, _, hp, rfl⟩, nofun⟩

end Operation

section

variable {α : Type} {decode : String → Except Fault α} {ofDocument : Json → Except Refusal α}
  {isSpelledOut : Json → Prop} {v : Json} {a : α}

/-- Decoding takes all that is taken out of the document, and no more where the document is spelled out. -/
structure Agree (decode : String → Except Fault α) (ofDocument : Json → Except Refusal α)
    (isSpelledOut : Json → Prop) : Prop where
  decodes : ∀ t d a, IsUnrepeated t → parse t = .ok d → ofDocument d = .ok a → decode t = .ok a
  extracts : ∀ t d a, IsUnrepeated t → parse t = .ok d → decode t = .ok a → isSpelledOut d →
    ofDocument d = .ok a

/-- Both ways lead back from a text. -/
structure Restores (decode : String → Except Fault α) (ofDocument : Json → Except Refusal α) (t : String)
    (a : α) : Prop where
  decodes : decode t = .ok a
  extracts : ∃ d, parse t = .ok d ∧ ofDocument d = .ok a

theorem Agree.restores (h : Agree decode ofDocument isSpelledOut) (hexact : v.All IsExact)
    (hdistinct : v.All HasDistinctNames) (hdepth : v.depth ≤ maxDepth) (ha : ofDocument v.ordered = .ok a) :
    Restores decode ofDocument v.render a := by
  have hd : parse v.render = .ok v.ordered := parse_render v hexact hdepth
  exact ⟨h.decodes _ _ _ ⟨v, isTextOf_render hexact, hdistinct⟩ hd ha, _, hd, ha⟩

end

namespace Request

def decode : String → Except Fault Request := Json.decode shape ofRecord?

def IsSpelledOut (d : Json) : Prop :=
  (∃ fs, d = .object fs) ∧ ∃ es, d.field? "operation" = some (.object es)

theorem agree : Agree decode ofDocument IsSpelledOut where
  decodes := by
    intro t d r hu hd h
    obtain ⟨v, hdistinct, rfl, hread⟩ := hu.exists_written hd
    have hwritten := (writtenIn_ordered hdistinct).1 (ofDocument_eq_ok_iff.1 h)
    obtain ⟨fs, rfl⟩ := object_of_field? hwritten.identity
    obtain ⟨w, hw, hr⟩ := exists_shaped hdistinct hwritten
    rw [decode, decode_eq_ok_iff_shaped (hread _ (by decide))]
    exact ⟨w, hw, ofRecord?_eq_some_iff.2 hr⟩
  extracts := by
    rintro t d r hu hd h ⟨⟨gs, hgs⟩, es, hes⟩
    obtain ⟨v, hdistinct, rfl, hread⟩ := hu.exists_written hd
    rw [decode, decode_eq_ok_iff_shaped (hread _ (by decide))] at h
    obtain ⟨w, hw, hr⟩ := h
    obtain ⟨fs, rfl⟩ := exists_object_of_ordered hgs
    rw [field?_ordered hdistinct] at hes
    obtain ⟨o, ho, heq⟩ := Option.map_eq_some_iff.1 hes
    obtain ⟨es, rfl⟩ := exists_object_of_ordered heq
    rw [ofDocument_eq_ok_iff, writtenIn_ordered hdistinct]
    exact (writtenIn_shaped hw ho).1 (ofRecord?_eq_some_iff.1 hr)

theorem restores (r : Request) : Restores decode ofDocument r.toJson.render r := by
  have hexact : r.toJson.All IsExact := by simp [toJson, Identity.toJson, Envelope.toJson, All, AllFields, IsExact]
  have hdistinct : r.toJson.All HasDistinctNames := by
    simp [toJson, Identity.toJson, Envelope.toJson, All, AllFields, HasDistinctNames]
  refine agree.restores hexact hdistinct (by decide : 2 ≤ 127) ?_
  rw [ofDocument_eq_ok_iff, writtenIn_ordered hdistinct]
  exact ⟨rfl, _, rfl, rfl, rfl, rfl⟩

end Request

namespace Operation

variable {o : Operation}

def decode : String → Except Fault Operation := Json.decode shape ofRecord?

def IsSpelledOut (d : Json) : Prop := (∃ fs, d = .object fs) ∧ d.field? "nonce" ≠ some .null

theorem agree : Agree decode ofDocument IsSpelledOut where
  decodes := by
    intro t d o hu hd h
    obtain ⟨v, hdistinct, rfl, hread⟩ := hu.exists_written hd
    obtain ⟨hm, hp, hn⟩ := (writtenIn_ordered hdistinct).1 (ofDocument_eq_ok_iff.1 h)
    obtain ⟨fs, rfl⟩ := object_of_field? hm
    obtain ⟨w, hw⟩ := exists_shaped hdistinct.1 hm (hp.imp fun ps h ↦ h.1) hn
    rw [decode, decode_eq_ok_iff_shaped (hread _ (by decide))]
    refine ⟨w, hw, ofRecord?_eq_some_iff.2 ⟨?_, (parameters_shaped hw).2 hp, (nonce_shaped hw).2 (.inl hn)⟩⟩
    exact (field?_eq_string_iff isPlain_fields hw (.tail _ (.head _))).2 hm
  extracts := by
    rintro t d o hu hd h ⟨⟨gs, hgs⟩, hnonce⟩
    obtain ⟨v, hdistinct, rfl, hread⟩ := hu.exists_written hd
    rw [decode, decode_eq_ok_iff_shaped (hread _ (by decide))] at h
    obtain ⟨w, hw, ho⟩ := h
    obtain ⟨fs, rfl⟩ := exists_object_of_ordered hgs
    obtain ⟨hm, hp, hn⟩ := ofRecord?_eq_some_iff.1 ho
    rw [ofDocument_eq_ok_iff, writtenIn_ordered hdistinct]
    refine ⟨(field?_eq_string_iff isPlain_fields hw (.tail _ (.head _))).1 hm, (parameters_shaped hw).1 hp, ?_⟩
    rcases (nonce_shaped hw).1 hn with hn | ⟨hnull, -⟩
    · exact hn
    · rw [field?_ordered hdistinct, field?_object, hnull] at hnonce
      exact absurd rfl hnonce

/-- Parameters that come back as they were when their text is read: their numbers are integers of 64 bits, their
fields in order, and there is room for one bracket more. -/
structure IsPortable (o : Operation) : Prop where
  exact : (Json.object o.parameters).All IsExact
  ordered : (Json.object o.parameters).All IsOrdered
  shallow : (Json.object o.parameters).depth ≤ 126

theorem toJson_cases (o : Operation) :
    (o.nonce = none ∧ o.toJson =
      .object [("method_name", .string o.method), ("parameters", .object o.parameters)]) ∨
    ∃ t, o.nonce = some t ∧ o.toJson = .object [("nonce", .string t), ("method_name", .string o.method),
      ("parameters", .object o.parameters)] := by
  obtain ⟨nonce, method, parameters⟩ := o
  cases nonce with
  | none => exact .inl ⟨rfl, rfl⟩
  | some t => exact .inr ⟨t, rfl, rfl⟩

theorem all_toJson {P : Json → Prop} (hstring : ∀ t, P (.string t))
    (hobject : ∀ fs, (fs.map Prod.fst).Nodup → P (.object fs)) (h : (Json.object o.parameters).All P) :
    o.toJson.All P := by
  rcases toJson_cases o with ⟨-, ho⟩ | ⟨t, -, ho⟩
  · rw [ho]
    exact ⟨hobject _ (by simp), hstring _, h, trivial⟩
  · rw [ho]
    exact ⟨hobject _ (by simp), hstring _, hstring _, h, trivial⟩

theorem depth_toJson (o : Operation) : o.toJson.depth = (Json.object o.parameters).depth + 1 := by
  rcases toJson_cases o with ⟨-, ho⟩ | ⟨t, -, ho⟩ <;> simp [ho, depth, depthFields]

theorem field?_toJson (o : Operation) : o.toJson.field? "method_name" = some (.string o.method) ∧
    o.toJson.field? "parameters" = some (.object o.parameters) ∧
    o.toJson.field? "nonce" = o.nonce.map .string := by
  rcases toJson_cases o with ⟨hn, ho⟩ | ⟨t, hn, ho⟩
  · rw [ho, hn]
    exact ⟨rfl, rfl, rfl⟩
  · rw [ho, hn]
    exact ⟨rfl, rfl, rfl⟩

theorem restores (ho : o.IsPortable) : Restores decode ofDocument o.toJson.render o := by
  have hdistinct : o.toJson.All HasDistinctNames :=
    all_toJson (fun _ ↦ trivial) (fun _ h ↦ h) (ho.ordered.imp fun _ ↦ IsOrdered.hasDistinctNames)
  have hdepth : o.toJson.depth ≤ maxDepth := by
    rw [depth_toJson]
    exact Nat.succ_le_succ ho.shallow
  refine agree.restores (all_toJson (fun _ ↦ trivial) (fun _ _ ↦ trivial) ho.exact) hdistinct hdepth ?_
  obtain ⟨hm, hp, hn⟩ := field?_toJson o
  rw [ofDocument_eq_ok_iff, writtenIn_ordered hdistinct]
  exact ⟨hm, ⟨_, hp, ordered_eq_self _ ho.ordered⟩, hn⟩

end Operation

/-- Decoding a text and reading it as a document agree on requests and on operations, and both give back what
was written: every request, and every operation whose parameters come back from their text. -/
theorem decoders_agree :
    Agree Request.decode Request.ofDocument Request.IsSpelledOut ∧
    Agree Operation.decode Operation.ofDocument Operation.IsSpelledOut ∧
    (∀ r : Request, Restores Request.decode Request.ofDocument r.toJson.render r) ∧
    ∀ o : Operation, o.IsPortable → Restores Operation.decode Operation.ofDocument o.toJson.render o :=
  ⟨Request.agree, Operation.agree, Request.restores, fun _ ho ↦ Operation.restores ho⟩

namespace Request

def annotated : Json :=
  .object [("operation", .object [("session_key_iv", .string "B"), ("note", .array [.null]),
      ("encrypted_session_key", .string "A"), ("encrypted_message", .string "C")]),
    ("note", .object [("minted_identity", .integer 1)]), ("minted_identity", .string "cap-1")]

theorem annotated_hasDistinctNames : annotated.All HasDistinctNames := by
  simp [annotated, All, AllFields, AllItems, HasDistinctNames]

theorem isUnrepeated_annotated : IsUnrepeated annotated.render := by
  refine ⟨annotated, isTextOf_render ?_, annotated_hasDistinctNames⟩
  simp [annotated, All, AllFields, AllItems, IsExact, leastInteger, greatestInteger]

theorem parse_annotated : parse annotated.render = .ok annotated.ordered := by
  refine parse_render annotated ?_ (by decide)
  simp [annotated, All, AllFields, AllItems, IsExact, leastInteger, greatestInteger]

theorem ofDocument_annotated : ofDocument annotated.ordered = .ok ⟨⟨"cap-1"⟩, ⟨"A", "B", "C"⟩⟩ :=
  ofDocument_eq_ok_iff.2 ((writtenIn_ordered annotated_hasDistinctNames).2 ⟨rfl, _, rfl, rfl, rfl, rfl⟩)

theorem isSpelledOut_annotated : IsSpelledOut annotated.ordered := by
  refine ⟨⟨_, rfl⟩, ?_⟩
  rw [field?_ordered annotated_hasDistinctNames]
  exact ⟨_, rfl⟩

end Request

namespace Operation

def lowest : Operation := ⟨some "n", "echo", [("bounds", .array [.integer (-9223372036854775808)])]⟩

theorem isPortable_lowest : lowest.IsPortable where
  exact := by simp [lowest, All, AllFields, AllItems, IsExact, leastInteger, greatestInteger]
  ordered := by simp [lowest, All, AllFields, AllItems, IsOrdered]
  shallow := by decide

end Operation

theorem decoders_agree_annotated :
    IsUnrepeated Request.annotated.render ∧ parse Request.annotated.render = .ok Request.annotated.ordered ∧
    Request.ofDocument Request.annotated.ordered = .ok ⟨⟨"cap-1"⟩, ⟨"A", "B", "C"⟩⟩ ∧
    Request.IsSpelledOut Request.annotated.ordered ∧
    Request.decode Request.annotated.render = .ok ⟨⟨"cap-1"⟩, ⟨"A", "B", "C"⟩⟩ ∧
    Operation.lowest.IsPortable ∧
    Restores Operation.decode Operation.ofDocument Operation.lowest.toJson.render Operation.lowest := by
  have hdecode := decoders_agree.1.decodes _ _ _ Request.isUnrepeated_annotated Request.parse_annotated
    Request.ofDocument_annotated
  refine ⟨Request.isUnrepeated_annotated, Request.parse_annotated, ?_, Request.isSpelledOut_annotated, hdecode,
    Operation.isPortable_lowest, decoders_agree.2.2.2 _ Operation.isPortable_lowest⟩
  exact decoders_agree.1.extracts _ _ _ Request.isUnrepeated_annotated Request.parse_annotated hdecode
    Request.isSpelledOut_annotated

end Gatekeeper
