import Gatekeeper.Proofs.Dispatch.Course

namespace Gatekeeper

def Json.at? : Json → List String → Option Json
  | v, [] => some v
  | v, name :: path => (v.field? name).bind fun w ↦ w.at? path

inductive Demand where
  | text
  | record
  | table

namespace Demand

def MetBy : Demand → Json → Prop
  | text, v => ∃ t, v = .string t
  | record, v => ∃ fields, v = .object fields
  | table, v => ∃ fields, v = .object fields

/-- What is noticed of a value, which is nothing if it does not meet the demand. -/
def view : Demand → Json → Option Json
  | text, .string t => some (.string t)
  | record, .object _ => some (.object [])
  | table, .object fields => some (.object fields)
  | _, _ => none

theorem isSome_view {demand : Demand} {v : Json} : (demand.view v).isSome ↔ demand.MetBy v := by
  cases demand <;> cases v <;> simp [view, MetBy]

theorem eq_of_view {demand : Demand} {v w : Json} (hd : demand ≠ .record) (hv : demand.MetBy v)
    (h : demand.view v = demand.view w) : v = w := by
  cases demand with
  | text =>
    obtain ⟨t, rfl⟩ := hv
    cases w <;> simp_all [view]
  | record => exact absurd rfl hd
  | table =>
    obtain ⟨fields, rfl⟩ := hv
    cases w <;> simp_all [view]

end Demand

structure Slot where
  above : List String := []
  name : String
  demand : Demand
  required : Bool := true

namespace Slot

def value? (s : Slot) (d : Json) : Option Json := d.at? (s.above ++ [s.name])

def isAbsent (s : Slot) (d : Json) : Bool := s.required && (s.value? d).isNone

def seen (s : Slot) (d : Json) : Option (Option Json) := (s.value? d).map s.demand.view

theorem isAbsent_eq_seen (s : Slot) (d : Json) : s.isAbsent d = (s.required && (s.seen d).isNone) := by
  simp [isAbsent, seen]

@[simp] theorem value?_top (name : String) (demand : Demand) (required : Bool) (d : Json) :
    value? ⟨[], name, demand, required⟩ d = d.field? name := by
  simp [value?, Json.at?]

@[simp] theorem value?_below (outer name : String) (demand : Demand) (required : Bool) (d : Json) :
    value? ⟨[outer], name, demand, required⟩ d = (d.field? outer).bind fun v ↦ v.field? name := by
  simp [value?, Json.at?]

end Slot

/-- A document is no object, or a value that is there is not of the kind its place demands. -/
def Misfits (slots : List Slot) (d : Json) : Prop :=
  (¬ ∃ fields, d = .object fields) ∨ ∃ s ∈ slots, ∃ v, s.value? d = some v ∧ ¬ s.demand.MetBy v

def firstAbsent? (slots : List Slot) (d : Json) : Option String :=
  (slots.find? fun s ↦ s.isAbsent d).map Slot.name

theorem firstAbsent?_nil (d : Json) : firstAbsent? [] d = none := rfl

theorem firstAbsent?_cons (s : Slot) (rest : List Slot) (d : Json) :
    firstAbsent? (s :: rest) d = bif s.isAbsent d then some s.name else firstAbsent? rest d := by
  rw [firstAbsent?, List.find?_cons]
  cases s.isAbsent d <;> rfl

theorem firstAbsent?_eq_none_iff {slots : List Slot} {d : Json} :
    firstAbsent? slots d = none ↔ ∀ s ∈ slots, s.required → (s.value? d).isSome := by
  simp [firstAbsent?, List.find?_eq_none, Slot.isAbsent, Option.isSome_iff_ne_none]

/-- Two documents look alike at some places. -/
structure LookAlike (slots : List Slot) (d e : Json) : Prop where
  isObject : (∃ fields, d = .object fields) ↔ ∃ fields, e = .object fields
  seen : ∀ s ∈ slots, s.seen d = s.seen e

variable {slots : List Slot} {d e : Json}

theorem not_misfits_iff : ¬ Misfits slots d ↔
    (∃ fields, d = .object fields) ∧ ∀ s ∈ slots, ∀ v, s.value? d = some v → s.demand.MetBy v := by
  simp only [Misfits, not_or, Classical.not_not, not_exists (α := Slot), not_and, not_exists (α := Json)]

namespace LookAlike

theorem symm (h : LookAlike slots d e) : LookAlike slots e d :=
  ⟨h.isObject.symm, fun s hs ↦ (h.seen s hs).symm⟩

theorem view_eq (h : LookAlike slots d e) {s : Slot} (hs : s ∈ slots) {v : Json} (hv : s.value? d = some v) :
    ∃ w, s.value? e = some w ∧ s.demand.view v = s.demand.view w := by
  have hseen := h.seen s hs
  rw [Slot.seen, Slot.seen, hv] at hseen
  cases hw : s.value? e with
  | none =>
    rw [hw] at hseen
    cases hseen
  | some w =>
    rw [hw] at hseen
    exact ⟨w, rfl, Option.some.inj hseen⟩

theorem value? (h : LookAlike slots d e) {s : Slot} (hs : s ∈ slots) {v : Json} (hd : s.demand ≠ .record)
    (hv : s.value? d = some v) (hmet : s.demand.MetBy v) : s.value? e = some v := by
  obtain ⟨w, hw, hview⟩ := h.view_eq hs hv
  rw [hw, Demand.eq_of_view hd hmet hview]

theorem value?_eq_none (h : LookAlike slots d e) {s : Slot} (hs : s ∈ slots) (hv : s.value? d = none) :
    s.value? e = none := by
  have hseen := h.seen s hs
  rwa [Slot.seen, Slot.seen, hv, Option.map_none, eq_comm, Option.map_eq_none_iff] at hseen

theorem misfits (h : LookAlike slots d e) (hd : Misfits slots d) : Misfits slots e := by
  cases hd with
  | inl hno => exact .inl fun he ↦ hno (h.isObject.2 he)
  | inr hex =>
    obtain ⟨s, hs, v, hv, hmet⟩ := hex
    obtain ⟨w, hw, hview⟩ := h.view_eq hs hv
    refine .inr ⟨s, hs, w, hw, ?_⟩
    rwa [← Demand.isSome_view, ← hview, Demand.isSome_view]

theorem firstAbsent?_eq (h : LookAlike slots d e) : firstAbsent? slots d = firstAbsent? slots e := by
  have hseen := h.seen
  clear h
  induction slots with
  | nil => rfl
  | cons s rest ih =>
    have hs : s.isAbsent d = s.isAbsent e := by
      rw [Slot.isAbsent_eq_seen, Slot.isAbsent_eq_seen, hseen s List.mem_cons_self]
    rw [firstAbsent?_cons, firstAbsent?_cons, hs, ih fun t ht ↦ hseen t (List.mem_cons_of_mem s ht)]

end LookAlike

/-- A kind of messages: the places of its documents, in the order in which they are asked for, the schema,
the extraction, and what it means that a message is written in a document. -/
structure Wire (α : Type) where
  slots : List Slot
  schema : Schema
  ofDocument : Json → Except Refusal α
  missing : String → Refusal
  WrittenIn : α → Json → Prop

namespace Wire

variable {α : Type}

def request : Wire Request where
  slots := [
    { name := "minted_identity", demand := .text },
    { name := "operation", demand := .record },
    { above := ["operation"], name := "encrypted_session_key", demand := .text },
    { above := ["operation"], name := "session_key_iv", demand := .text },
    { above := ["operation"], name := "encrypted_message", demand := .text }]
  schema := .request
  ofDocument := Request.ofDocument
  missing := .missingRequestField
  WrittenIn := Request.WrittenIn

def operation : Wire Operation where
  slots := [
    { name := "nonce", demand := .text, required := false },
    { name := "method_name", demand := .text },
    { name := "parameters", demand := .table }]
  schema := .operation
  ofDocument := Operation.ofDocument
  missing := .missingOperationField
  WrittenIn := Operation.WrittenIn

def read (w : Wire α) (d : Json) : Except Refusal α :=
  (Dispatcher.screen w.schema w.ofDocument d).mapError Prod.fst

/-- What the schema and the extraction of a kind of messages do, each on its own. -/
structure Lawful (w : Wire α) : Prop where
  conforms_iff (d : Json) : w.schema.conforms d ↔ ¬ Misfits w.slots d
  extraction {d : Json} (hfit : ¬ Misfits w.slots d) :
    (∃ name, firstAbsent? w.slots d = some name ∧ w.ofDocument d = .error (w.missing name)) ∨
      firstAbsent? w.slots d = none ∧ ∃ a, w.ofDocument d = .ok a
  ofDocument_eq_ok_iff {d : Json} {a : α} : w.ofDocument d = .ok a ↔ w.WrittenIn a d
  conforms_of_writtenIn {d : Json} {a : α} : w.WrittenIn a d → w.schema.conforms d
  writtenIn_congr {d e : Json} {a : α} : LookAlike w.slots d e → w.WrittenIn a d → w.WrittenIn a e
  missing_ne (name : String) : w.missing name ≠ .invalidJson
  missing_injective {name other : String} : w.missing name = w.missing other → name = other

end Wire

namespace Schema

variable {properties : List (String × Schema)} {fields : List (String × Json)} {v : Json}

theorem conforms_text_iff : conforms .text v ↔ ∃ t, v = .string t := by
  rw [conforms]
  cases v <;> simp [Json.string?]

theorem conformsAll_iff : conformsAll properties fields ↔
    ∀ p ∈ properties, ∀ w, fields.lookup p.1 = some w → conforms p.2 w := by
  induction properties with
  | nil => simp [conformsAll]
  | cons p rest ih =>
    obtain ⟨name, s⟩ := p
    rw [conformsAll, Bool.and_eq_true, ih, List.forall_mem_cons]
    cases fields.lookup name <;> simp

theorem conforms_object_iff : conforms (.object properties) v ↔
    (∃ fields, v = .object fields) ∧ ∀ p ∈ properties, ∀ w, v.field? p.1 = some w → conforms p.2 w := by
  cases v with
  | object fields => simp [conforms, conformsAll_iff, field?_object]
  | _ => simp [conforms]

end Schema

namespace Wire

theorem request_conforms_iff (d : Json) : Schema.request.conforms d ↔ ¬ Misfits request.slots d := by
  simp only [not_misfits_iff, Schema.request, request, Schema.conforms_object_iff, Schema.conforms_text_iff,
    List.forall_mem_cons, Slot.value?_top, Slot.value?_below, Demand.MetBy]
  cases d.field? "operation" with
  | none => simp
  | some o =>
    simp only [Option.bind_some, Option.some.injEq, forall_eq', List.not_mem_nil, false_imp_iff, implies_true,
      and_true]
    constructor
    · rintro ⟨hd, hi, ho, hm, hk, hv⟩
      exact ⟨hd, hi, ho, hk, hv, hm⟩
    · rintro ⟨hd, hi, ho, hk, hv, hm⟩
      exact ⟨hd, hi, ho, hm, hk, hv⟩

theorem operation_conforms_iff (d : Json) :
    Schema.operation.conforms d ↔ ¬ Misfits operation.slots d := by
  simp only [not_misfits_iff, Schema.operation, operation, Schema.conforms_object_iff,
    Schema.conforms_text_iff, List.forall_mem_cons, List.not_mem_nil, false_imp_iff, implies_true, and_true,
    Slot.value?_top, Demand.MetBy]
  constructor
  · rintro ⟨hd, hm, hn, hp⟩
    exact ⟨hd, hn, hm, hp⟩
  · rintro ⟨hd, hn, hm, hp⟩
    exact ⟨hd, hm, hn, hp⟩

theorem request_extraction {d : Json} (hfit : ¬ Misfits request.slots d) :
    (∃ name, firstAbsent? request.slots d = some name ∧
      Request.ofDocument d = .error (.missingRequestField name)) ∨
    firstAbsent? request.slots d = none ∧ ∃ r, Request.ofDocument d = .ok r := by
  obtain ⟨⟨fields, rfl⟩, hslots⟩ := not_misfits_iff.1 hfit
  simp only [request, List.forall_mem_cons, Slot.value?_top, Slot.value?_below, Demand.MetBy,
    field?_object] at hslots
  simp only [request, firstAbsent?_cons, firstAbsent?_nil, Slot.isAbsent, Slot.value?_top,
    Slot.value?_below, field?_object, Bool.true_and, Request.ofDocument,
    asObject_object, ok_bind]
  obtain ⟨hi, ho, hk, hv, hm, -⟩ := hslots
  -- The places are gone through in the order in which the extraction asks for them.
  cases hi' : fields.lookup "minted_identity" with
  | none => exact .inl ⟨_, rfl, by rw [required_of_none hi', error_bind]⟩
  | some v =>
    obtain ⟨i, rfl⟩ := hi v hi'
    simp only [required_of_some hi', asText_string, ok_bind, Option.isNone_some, cond_false]
    cases ho' : fields.lookup "operation" with
    | none => exact .inl ⟨_, rfl, by rw [required_of_none ho', error_bind]⟩
    | some o =>
      obtain ⟨sealed, rfl⟩ := ho o ho'
      rw [ho', Option.bind_some, field?_object] at hk hv hm
      simp only [required_of_some ho', asObject_object, ok_bind, Option.isNone_some, cond_false,
        Option.bind_some, field?_object]
      cases hk' : sealed.lookup "encrypted_session_key" with
      | none => exact .inl ⟨_, rfl, by rw [required_of_none hk', error_bind, error_bind]⟩
      | some key =>
        obtain ⟨key, rfl⟩ := hk key hk'
        simp only [required_of_some hk', asText_string, ok_bind, Option.isNone_some, cond_false]
        cases hv' : sealed.lookup "session_key_iv" with
        | none => exact .inl ⟨_, rfl, by rw [required_of_none hv', error_bind, error_bind]⟩
        | some iv =>
          obtain ⟨iv, rfl⟩ := hv iv hv'
          simp only [required_of_some hv', asText_string, ok_bind, Option.isNone_some, cond_false]
          cases hm' : sealed.lookup "encrypted_message" with
          | none => exact .inl ⟨_, rfl, by rw [required_of_none hm', error_bind, error_bind]⟩
          | some message =>
            obtain ⟨message, rfl⟩ := hm message hm'
            simp only [required_of_some hm', asText_string, ok_bind, Option.isNone_some, cond_false]
            exact .inr ⟨trivial, _, rfl⟩

theorem operation_extraction {d : Json} (hfit : ¬ Misfits operation.slots d) :
    (∃ name, firstAbsent? operation.slots d = some name ∧
      Operation.ofDocument d = .error (.missingOperationField name)) ∨
    firstAbsent? operation.slots d = none ∧ ∃ o, Operation.ofDocument d = .ok o := by
  obtain ⟨⟨fields, rfl⟩, hslots⟩ := not_misfits_iff.1 hfit
  simp only [operation, List.forall_mem_cons, Slot.value?_top, Demand.MetBy, field?_object] at hslots
  simp only [operation, firstAbsent?_cons, firstAbsent?_nil, Slot.isAbsent, Slot.value?_top, field?_object,
    Bool.false_and, Bool.true_and, cond_false]
  obtain ⟨hn, hm, hp, -⟩ := hslots
  have hnonce : ∃ nonce : Option String, fields.lookup "nonce" = nonce.map .string := by
    cases hn' : fields.lookup "nonce" with
    | none => exact ⟨none, rfl⟩
    | some v =>
      obtain ⟨t, rfl⟩ := hn v hn'
      exact ⟨some t, rfl⟩
  obtain ⟨nonce, hnonce⟩ := hnonce
  rw [Operation.ofDocument_object hnonce]
  cases hm' : fields.lookup "method_name" with
  | none => exact .inl ⟨_, rfl, by rw [required_of_none hm', error_bind]⟩
  | some method =>
    obtain ⟨method, rfl⟩ := hm method hm'
    simp only [required_of_some hm', asText_string, ok_bind, Option.isNone_some, cond_false]
    cases hp' : fields.lookup "parameters" with
    | none => exact .inl ⟨_, rfl, by rw [required_of_none hp', error_bind]⟩
    | some parameters =>
      obtain ⟨parameters, rfl⟩ := hp parameters hp'
      simp only [required_of_some hp', asObject_object, ok_bind, Option.isNone_some, cond_false]
      exact .inr ⟨trivial, _, rfl⟩

theorem request_writtenIn_iff {d : Json} {r : Request} : r.WrittenIn d ↔
    d.field? "minted_identity" = some (.string r.identity.name) ∧
    ((d.field? "operation").bind fun o ↦ o.field? "encrypted_session_key") =
      some (.string r.envelope.encryptedSessionKey) ∧
    ((d.field? "operation").bind fun o ↦ o.field? "session_key_iv") =
      some (.string r.envelope.sessionKeyIv) ∧
    ((d.field? "operation").bind fun o ↦ o.field? "encrypted_message") =
      some (.string r.envelope.encryptedMessage) := by
  constructor
  · rintro ⟨hi, o, ho, hk, hv, hm⟩
    rw [ho]
    exact ⟨hi, hk, hv, hm⟩
  · rintro ⟨hi, hk, hv, hm⟩
    obtain ⟨o, ho, hk⟩ := Option.bind_eq_some_iff.1 hk
    rw [ho] at hv hm
    exact ⟨hi, o, ho, hk, hv, hm⟩

theorem request_lawful : request.Lawful where
  conforms_iff := request_conforms_iff
  extraction := request_extraction
  ofDocument_eq_ok_iff := Request.ofDocument_eq_ok_iff
  conforms_of_writtenIn h := (Request.complete_iff.2 ⟨_, h⟩).conforms
  writtenIn_congr {d e r} h hr := by
    have hseen (above : List String) (name t : String) (hs : ⟨above, name, .text, true⟩ ∈ request.slots)
        (ht : Slot.value? ⟨above, name, .text, true⟩ d = some (.string t)) :
        Slot.value? ⟨above, name, .text, true⟩ e = some (.string t) :=
      h.value? hs nofun ht ⟨t, rfl⟩
    simp only [request, List.mem_cons] at hseen
    obtain ⟨hi, hk, hv, hm⟩ := request_writtenIn_iff.1 hr
    refine request_writtenIn_iff.2 ⟨?_, ?_, ?_, ?_⟩
    · simpa using hseen [] "minted_identity" _ (by simp) (by simpa using hi)
    · simpa using hseen ["operation"] "encrypted_session_key" _ (by simp) (by simpa using hk)
    · simpa using hseen ["operation"] "session_key_iv" _ (by simp) (by simpa using hv)
    · simpa using hseen ["operation"] "encrypted_message" _ (by simp) (by simpa using hm)
  missing_ne _ := nofun
  missing_injective h := Refusal.missingRequestField.inj h

theorem operation_lawful : operation.Lawful where
  conforms_iff := operation_conforms_iff
  extraction := operation_extraction
  ofDocument_eq_ok_iff := Operation.ofDocument_eq_ok_iff
  conforms_of_writtenIn h := (Operation.complete_iff.2 ⟨_, h⟩).conforms
  writtenIn_congr {d e o} h ho := by
    have hn : (⟨[], "nonce", .text, false⟩ : Slot) ∈ operation.slots := by simp [operation]
    have hm : (⟨[], "method_name", .text, true⟩ : Slot) ∈ operation.slots := by simp [operation]
    have hp : (⟨[], "parameters", .table, true⟩ : Slot) ∈ operation.slots := by simp [operation]
    refine ⟨?_, ?_, ?_⟩
    · simpa using h.value? hm nofun ((Slot.value?_top ..).trans ho.method) ⟨_, rfl⟩
    · simpa using h.value? hp nofun ((Slot.value?_top ..).trans ho.parameters) ⟨_, rfl⟩
    · have hnonce := (Slot.value?_top "nonce" .text false d).trans ho.nonce
      cases ho' : o.nonce with
      | none =>
        rw [ho'] at hnonce
        simpa using h.value?_eq_none hn hnonce
      | some t =>
        rw [ho'] at hnonce
        simpa using h.value? hn nofun hnonce ⟨t, rfl⟩
  missing_ne _ := nofun
  missing_injective h := Refusal.missingOperationField.inj h

section

variable {w : Wire α} {d : Json}

theorem read_eq_ok_iff (h : w.Lawful) {a : α} : w.read d = .ok a ↔ w.WrittenIn a d := by
  rw [read, mapError_eq_ok_iff, Dispatcher.screen_eq_ok_iff, h.ofDocument_eq_ok_iff]
  constructor
  · exact And.right
  · intro ha
    exact ⟨(Schema.mismatchAt_eq_none_iff [] [] _ d).2 (h.conforms_of_writtenIn ha), ha⟩

theorem read_of_misfits (h : w.Lawful) (hd : Misfits w.slots d) : w.read d = .error .invalidJson := by
  have hc : ¬ w.schema.conforms d := fun hc ↦ (h.conforms_iff d).1 hc hd
  obtain ⟨v, hv⟩ := Option.isSome_iff_exists.1 (Dispatcher.mismatch?_isSome_iff.2 hc)
  simp only [read, Dispatcher.screen, hv, mapError_error]

theorem read_of_fits (h : w.Lawful) (hd : ¬ Misfits w.slots d) : w.read d = w.ofDocument d := by
  have hv : w.schema.mismatch? d = none :=
    (Schema.mismatchAt_eq_none_iff [] [] _ d).2 ((h.conforms_iff d).2 hd)
  unfold read Dispatcher.screen
  rw [hv]
  cases w.ofDocument d <;> rfl

/-- The head under which a document falls, with the outcome for it. -/
inductive Head (w : Wire α) (d : Json) : Except Refusal α → Prop
  | misfit : Misfits w.slots d → Head w d (.error .invalidJson)
  | absent {name : String} : ¬ Misfits w.slots d → firstAbsent? w.slots d = some name →
    Head w d (.error (w.missing name))
  | message {a : α} : ¬ Misfits w.slots d → firstAbsent? w.slots d = none → w.WrittenIn a d →
    Head w d (.ok a)

theorem Lawful.head (h : w.Lawful) (d : Json) : w.Head d (w.read d) := by
  by_cases hd : Misfits w.slots d
  · rw [read_of_misfits h hd]
    exact .misfit hd
  · rw [read_of_fits h hd]
    obtain ⟨name, ha, ho⟩ | ⟨ha, a, ho⟩ := h.extraction hd
    · rw [ho]
      exact .absent hd ha
    · rw [ho]
      exact .message hd ha (h.ofDocument_eq_ok_iff.1 ho)

namespace Head

variable {outcome : Except Refusal α}

theorem eq_invalidJson_iff (h : w.Lawful) (hd : w.Head d outcome) :
    outcome = .error .invalidJson ↔ Misfits w.slots d := by
  cases hd with
  | misfit hm => simp [hm]
  | absent hm ha => simp [hm, h.missing_ne]
  | message hm ha hw => simp [hm]

theorem eq_missing_iff (h : w.Lawful) (hd : w.Head d outcome) {name : String} :
    outcome = .error (w.missing name) ↔ ¬ Misfits w.slots d ∧ firstAbsent? w.slots d = some name := by
  cases hd with
  | misfit hm => simp [hm, (h.missing_ne name).symm]
  | absent hm ha =>
    simp only [hm, ha, Except.error.injEq, Option.some.injEq, not_false_eq_true, true_and]
    exact ⟨h.missing_injective, congrArg w.missing⟩
  | message hm ha hw => simp [ha]

theorem isOk_iff (hd : w.Head d outcome) :
    (∃ a, outcome = .ok a) ↔ ¬ Misfits w.slots d ∧ firstAbsent? w.slots d = none := by
  cases hd with
  | misfit hm => simp [hm]
  | absent hm ha => simp [ha]
  | message hm ha hw => simp [hm, ha]

theorem congr (h : w.Lawful) (hd : w.Head d outcome) {e : Json} (he : LookAlike w.slots d e) :
    w.read e = outcome := by
  cases hd with
  | misfit hm => exact read_of_misfits h (he.misfits hm)
  | absent hm ha =>
    rw [he.firstAbsent?_eq] at ha
    exact ((h.head e).eq_missing_iff h).2 ⟨fun hm' ↦ hm (he.symm.misfits hm'), ha⟩
  | message hm ha hw => exact (read_eq_ok_iff h).2 (h.writtenIn_congr he hw)

end Head

structure Classified (w : Wire α) (d : Json) : Prop where
  invalid : w.read d = .error .invalidJson ↔ Misfits w.slots d
  missing (name : String) : w.read d = .error (w.missing name) ↔
    ¬ Misfits w.slots d ∧ firstAbsent? w.slots d = some name
  complete : (∃ a, w.read d = .ok a) ↔ ¬ Misfits w.slots d ∧ firstAbsent? w.slots d = none
  written (a : α) : w.read d = .ok a ↔ w.WrittenIn a d
  screened : w.schema.conforms d → w.ofDocument d ≠ .error .invalidJson
  extracted (a : α) : w.ofDocument d = .ok a → w.schema.conforms d
  confined (e : Json) : LookAlike w.slots d e → w.read e = w.read d

theorem Lawful.classified (h : w.Lawful) (d : Json) : w.Classified d where
  invalid := (h.head d).eq_invalidJson_iff h
  missing _ := (h.head d).eq_missing_iff h
  complete := (h.head d).isOk_iff
  written _ := read_eq_ok_iff h
  screened hc ho := by
    have hd := (h.conforms_iff d).1 hc
    rw [← read_of_fits h hd] at ho
    exact hd (((h.head d).eq_invalidJson_iff h).1 ho)
  extracted _ ho := h.conforms_of_writtenIn (h.ofDocument_eq_ok_iff.1 ho)
  confined _ he := (h.head d).congr h he

end

/-- The schema and the extraction classify every document, as a request and as an operation. -/
theorem documents_classified (d : Json) : request.Classified d ∧ operation.Classified d :=
  ⟨request_lawful.classified d, operation_lawful.classified d⟩

example : request.read (.object [("operation", .null)]) = .error .invalidJson := rfl

example : request.read (.object [("operation", .object [])]) =
    .error (.missingRequestField "minted_identity") := rfl

end Wire

end Gatekeeper
