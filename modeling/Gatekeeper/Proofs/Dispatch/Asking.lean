import Gatekeeper.Proofs.Dispatch.Classification
import Gatekeeper.Server.Routes

namespace Gatekeeper

variable {σ τ : Type}

def Ask.recorded (ask : Ask τ) : Ask (τ × List Identity) := fun i t ↦
  ((ask i t.1).1, (ask i t.1).2, t.2 ++ [i])

namespace Dispatcher

def dispatchAll (d : Dispatcher σ) (ask : Ask τ) (channel : Channel) :
    List Bytes → σ → τ → List (Dispatched σ) × τ
  | [], _, t => ([], t)
  | body :: rest, s, t =>
    let (done, t) := d.dispatchAsking ask channel body s t
    let (dones, t) := d.dispatchAll ask channel rest done.state t
    (done :: dones, t)

variable {d : Dispatcher σ} {ask : Ask τ} {channel : Channel} {body : Bytes} {r : Request} {s : σ} {t : τ}

/-- What is found is all that the dispatcher gets to see of a store, and it looks at most once. -/
theorem dispatchAsking_eq (d : Dispatcher σ) (ask : Ask τ) (channel : Channel) (body : Bytes) (s : σ) (t : τ) :
    d.dispatchAsking ask channel body s t =
      (d.dispatch (fun i ↦ (ask i t).1) channel body s,
        match requestOf body with
        | .error _ => t
        | .ok r => (ask r.identity t).2) := by
  unfold dispatch dispatchAsking
  cases requestOf body with
  | error e => rfl
  | ok r =>
    unfold plaintextAsking Lookup.ask
    dsimp only
    generalize ask r.identity t = asked
    obtain ⟨answer, after⟩ := asked
    cases answer with
    | error e => rfl
    | ok key =>
      dsimp only
      cases channel key r.envelope with
      | error e => rfl
      | ok plaintext =>
        dsimp only
        cases operationOf plaintext <;> rfl

end Dispatcher

theorem Dispatcher.consulted_eq (d : Dispatcher σ) (lookup : Lookup) (channel : Channel) (body : Bytes) (s : σ) :
    (d.dispatch lookup channel body s).trace.consulted =
      (requestOf body).toOption.map Request.identity := by
  have hcourse := d.course lookup channel body s
  generalize d.dispatch lookup channel body s = done at hcourse
  cases hcourse with
  | request hr => rw [hr]; rfl
  | envelope hr hv => rw [hr]; rfl
  | operation hr hv ho => rw [hr]; rfl
  | performed hr hv ho => rw [hr, (d.perform_trace _ _ s).1]; rfl

namespace Request

/-- The identity of the request that a body makes: the text in its field `minted_identity`, if the body is
JSON that meets the schema of requests and has all five fields. -/
def identityIn? (body : Bytes) : Option Identity :=
  match Json.parseBytes body with
  | .error _ => none
  | .ok document =>
    if Schema.request.conforms document && Wire.request.slots.all fun s ↦ (s.value? document).isSome then
      ((document.field? "minted_identity").bind Json.string?).map Identity.mk
    else none

theorem all_isSome_iff (document : Json) :
    (Wire.request.slots.all fun s ↦ (s.value? document).isSome) ↔
      firstAbsent? Wire.request.slots document = none := by
  rw [firstAbsent?_eq_none_iff, List.all_eq_true]
  have hrequired : ∀ s ∈ Wire.request.slots, s.required := by simp [Wire.request]
  exact forall₂_congr fun s hs ↦ by simp [hrequired s hs]

theorem identityIn?_eq (body : Bytes) :
    identityIn? body = (Dispatcher.requestOf body).toOption.map Request.identity := by
  unfold identityIn?
  cases hp : Json.parseBytes body with
  | error fault =>
    rw [Dispatcher.requestOf_of_unparsed hp]
    rfl
  | ok document =>
    have hread : (Dispatcher.requestOf body).toOption = (Wire.request.read document).toOption := by
      rw [Dispatcher.requestOf_of_parsed hp]
      exact (toOption_mapError _ _).symm
    rw [hread]
    have hhead := Wire.request_lawful.head document
    generalize Wire.request.read document = outcome at hhead
    cases hhead with
    | misfit hm =>
      have hc := (not_congr (Wire.request_conforms_iff document)).2 (not_not_intro hm)
      simp [hc, Except.toOption]
    | absent hm ha =>
      have hall := (not_congr (all_isSome_iff document)).2 (by simp [ha])
      simp [hall, Except.toOption]
    | message hm ha hw =>
      have hc := (Wire.request_conforms_iff document).2 hm
      have hall := (all_isSome_iff document).2 ha
      dsimp only
      rw [hc, hall, hw.identity]
      rfl

theorem requestOf_of_identityIn?_eq_none {body : Bytes} (h : identityIn? body = none) :
    ∃ refusal mismatch, Dispatcher.requestOf body = .error (refusal, mismatch) ∧
      (refusal = .invalidJson ∨ ∃ name ∈ Wire.request.slots.map Slot.name,
        refusal = .missingRequestField name) := by
  rw [identityIn?_eq] at h
  cases hr : Dispatcher.requestOf body with
  | ok r =>
    rw [hr] at h
    cases h
  | error e =>
    refine ⟨e.1, e.2, rfl, ?_⟩
    cases hp : Json.parseBytes body with
    | error fault =>
      rw [Dispatcher.requestOf_of_unparsed hp] at hr
      cases hr
      exact .inl rfl
    | ok document =>
      rw [Dispatcher.requestOf_of_parsed hp] at hr
      have hread : Wire.request.read document = .error e.1 := by
        rw [Wire.read, Wire.request, hr]
        rfl
      have hhead := Wire.request_lawful.head document
      rw [hread] at hhead
      generalize e.1 = refusal at hhead
      cases hhead with
      | misfit hm => exact .inl rfl
      | absent hm ha =>
        obtain ⟨s, hs, hname⟩ := Option.map_eq_some_iff.1 ha
        exact .inr ⟨_, hname ▸ List.mem_map_of_mem (List.mem_of_find?_eq_some hs), rfl⟩

end Request

def Ask.after (ask : Ask τ) (body : Bytes) (t : τ) : τ :=
  match Request.identityIn? body with
  | some i => (ask i t).2
  | none => t

theorem Ask.after_recorded (ask : Ask τ) (body : Bytes) (t : τ) (seen : List Identity) :
    ask.recorded.after body (t, seen) = (ask.after body t, seen ++ (Request.identityIn? body).toList) := by
  unfold after
  cases Request.identityIn? body with
  | none => exact congrArg _ (List.append_nil seen).symm
  | some i => rfl

theorem Dispatcher.dispatchAsking_snd (d : Dispatcher σ) (ask : Ask τ) (channel : Channel) (body : Bytes) (s : σ)
    (t : τ) : (d.dispatchAsking ask channel body s t).2 = ask.after body t := by
  rw [dispatchAsking_eq, Ask.after, Request.identityIn?_eq]
  cases requestOf body <;> rfl

namespace Server

theorem processAsking_eq (s : Server σ) (ask : Ask τ) (diskOf : τ → Disk) (now : Nat) (body : Bytes) (state : σ)
    (t : τ) : s.processAsking ask diskOf now body state t =
      let done := s.dispatcher.dispatch (fun i ↦ (ask i t).1) (fun k e ↦ e.unpack k) body state
      let recorded := s.audit.record now (.request (Dispatcher.eventOf done.response done.trace body.length))
        (diskOf (ask.after body t))
      ({ response := frame done.response, state := done.state, disk := recorded.2, errors := recorded.1 },
        ask.after body t) := by
  have hfound := congrArg Prod.fst (s.dispatcher.dispatchAsking_eq ask (fun k e ↦ e.unpack k) body state t)
  have hleft := s.dispatcher.dispatchAsking_snd ask (fun k e ↦ e.unpack k) body state t
  simp only [processAsking, Dispatcher.handleAsking, hfound, hleft]

theorem process_eq (s : Server σ) (now : Nat) (body : Bytes) (state : σ) (d : Disk) :
    s.process now body state d =
      let done := s.dispatcher.dispatch (s.store.lookup d) (fun k e ↦ e.unpack k) body state
      let recorded := s.audit.record now (.request (Dispatcher.eventOf done.response done.trace body.length))
        (s.store.ask.after body d)
      { response := frame done.response, state := done.state, disk := recorded.2, errors := recorded.1 } := by
  rw [process, processAsking_eq]
  rfl

end Server

namespace Dispatcher

/-- How a body is dispatched with a store that changes with being asked. -/
structure AsksOnce (d : Dispatcher σ) (ask : Ask τ) (channel : Channel) (body : Bytes) (s : σ) (t : τ) :
    Prop where
  outcome : (d.dispatchAsking ask channel body s t).1 = d.dispatch (fun i ↦ (ask i t).1) channel body s
  store : (d.dispatchAsking ask channel body s t).2 =
    match Request.identityIn? body with
    | some i => (ask i t).2
    | none => t
  refused : Request.identityIn? body = none →
    (d.dispatchAsking ask channel body s t).1.state = s ∧
    ((d.dispatchAsking ask channel body s t).1.response.body = Bytes.ofString "invalid JSON" ∨
      ∃ name ∈ Wire.request.slots.map Slot.name,
        (d.dispatchAsking ask channel body s t).1.response.body =
          Bytes.ofString s!"missing field in request: {name}")

theorem asksOnce (d : Dispatcher σ) (ask : Ask τ) (channel : Channel) (body : Bytes) (s : σ) (t : τ) :
    d.AsksOnce ask channel body s t where
  outcome := by rw [dispatchAsking_eq]
  store := d.dispatchAsking_snd ask channel body s t
  refused h := by
    obtain ⟨refusal, mismatch, hr, hrefusal⟩ := Request.requestOf_of_identityIn?_eq_none h
    rw [dispatchAsking_eq, dispatch_of_not_request d _ channel s hr]
    refine ⟨rfl, ?_⟩
    rcases hrefusal with rfl | ⟨name, hname, rfl⟩
    · exact .inl rfl
    · exact .inr ⟨name, hname, rfl⟩

theorem dispatchAsking_recorded (d : Dispatcher σ) (ask : Ask τ) (channel : Channel) (body : Bytes) (s : σ)
    (t : τ) (seen : List Identity) :
    d.dispatchAsking ask.recorded channel body s (t, seen) =
      ((d.dispatchAsking ask channel body s t).1, (d.dispatchAsking ask channel body s t).2,
        seen ++ (Request.identityIn? body).toList) := by
  refine Prod.ext ?_ ?_
  · rw [dispatchAsking_eq, dispatchAsking_eq]
    rfl
  · rw [dispatchAsking_snd, dispatchAsking_snd, Ask.after_recorded]

theorem dispatchAll_recorded (d : Dispatcher σ) (ask : Ask τ) (channel : Channel) (bodies : List Bytes)
    (s : σ) (t : τ) (seen : List Identity) :
    d.dispatchAll ask.recorded channel bodies s (t, seen) =
      ((d.dispatchAll ask channel bodies s t).1, (d.dispatchAll ask channel bodies s t).2,
        seen ++ bodies.filterMap Request.identityIn?) := by
  induction bodies generalizing s t seen with
  | nil => simp [dispatchAll]
  | cons body rest ih =>
    simp only [dispatchAll, dispatchAsking_recorded, ih]
    cases hi : Request.identityIn? body <;> simp [hi]

/-- The store is asked for the identities of the bodies that make requests, in their order and for nothing
else, whatever it answers, whatever the envelopes hold and whatever the handlers do. -/
theorem store_discipline (d : Dispatcher σ) (ask : Ask τ) (channel : Channel) :
    (∀ body s t, d.AsksOnce ask channel body s t) ∧
    ∀ bodies s t seen, d.dispatchAll ask.recorded channel bodies s (t, seen) =
      ((d.dispatchAll ask channel bodies s t).1, (d.dispatchAll ask channel bodies s t).2,
        seen ++ bodies.filterMap Request.identityIn?) :=
  ⟨d.asksOnce ask channel, d.dispatchAll_recorded ask channel⟩

end Dispatcher

end Gatekeeper
