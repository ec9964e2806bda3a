import Gatekeeper.Proofs.Catalog
import Gatekeeper.Proofs.Dispatch.Reading

namespace Gatekeeper

variable {σ : Type}

namespace Dispatcher

variable {lookup : Lookup} {channel : Channel} {body : Bytes} {r : Request}

theorem plaintextOf_eq (lookup : Lookup) (channel : Channel) (r : Request) : plaintextOf lookup channel r =
    match lookup r.identity with
    | .error e => .error (.unpack e.anonymous)
    | .ok key =>
      match channel key r.envelope with
      | .error e => .error (.unpack e.message)
      | .ok plaintext => .ok plaintext := by
  unfold plaintextOf plaintextAsking Lookup.ask
  cases lookup r.identity with
  | error e => rfl
  | ok key =>
    dsimp only
    cases channel key r.envelope <;> rfl

theorem dispatch_eq (d : Dispatcher σ) (lookup : Lookup) (channel : Channel) (body : Bytes) (s : σ) :
    d.dispatch lookup channel body s =
      match requestOf body with
      | .error (refusal, mismatch) => ⟨.failure refusal, { mismatch }, s⟩
      | .ok r =>
        let trace : Trace := { consulted := some r.identity }
        match plaintextOf lookup channel r with
        | .error refusal => ⟨.failure refusal, trace, s⟩
        | .ok plaintext =>
          match operationOf plaintext with
          | .error (refusal, mismatch) => ⟨.failure refusal, { trace with mismatch }, s⟩
          | .ok o => d.perform o trace s := by
  unfold dispatch dispatchAsking plaintextOf
  cases requestOf body with
  | error e => rfl
  | ok r =>
    dsimp only
    generalize plaintextAsking lookup.ask channel r () = asked
    obtain ⟨answer, after⟩ := asked
    cases answer with
    | error refusal => rfl
    | ok plaintext =>
      dsimp only
      cases operationOf plaintext <;> rfl

theorem handle_eq (d : Dispatcher σ) (lookup : Lookup) (channel : Channel) (body : Bytes) (s : σ) :
    d.handle lookup channel body s =
      let done := d.dispatch lookup channel body s
      (done, .request (eventOf done.response done.trace body.length)) := rfl

theorem plaintextOf_eq_ok_iff {v : Json} : plaintextOf lookup channel r = .ok v ↔
    ∃ k, lookup r.identity = .ok k ∧ channel k r.envelope = .ok v := by
  rw [plaintextOf_eq]
  cases lookup r.identity with
  | error e => simp
  | ok k => cases h : channel k r.envelope <;> simp [h]

theorem plaintextOf_eq_error {refusal : Refusal} (h : plaintextOf lookup channel r = .error refusal) :
    ∃ detail, refusal = .unpack detail := by
  rw [plaintextOf_eq] at h
  split at h
  next e _ => exact ⟨_, (Except.error.inj h).symm⟩
  · split at h
    next e _ => exact ⟨_, (Except.error.inj h).symm⟩
    · cases h

theorem plaintextOf_of_lookup_error (lookup : Lookup) (channel : Channel) {e : StoreError}
    (h : lookup r.identity = .error e) : plaintextOf lookup channel r = .error (.unpack e.anonymous) := by
  simp only [plaintextOf_eq, h]

def Opens (lookup : Lookup) (channel : Channel) (body : Bytes) : Prop :=
  ∃ r k v, requestOf body = .ok r ∧ lookup r.identity = .ok k ∧ channel k r.envelope = .ok v

theorem dispatch_of_not_request {refusal : Refusal} {mismatch : Option Schema.Mismatch}
    (d : Dispatcher σ) (lookup : Lookup) (channel : Channel) (s : σ)
    (h : requestOf body = .error (refusal, mismatch)) :
    d.dispatch lookup channel body s = ⟨.failure refusal, { mismatch }, s⟩ := by
  simp only [dispatch_eq, h]

theorem dispatch_of_not_opens (d : Dispatcher σ) (s : σ) (hr : requestOf body = .ok r)
    (h : ¬ Opens lookup channel body) :
    ∃ detail, d.dispatch lookup channel body s =
      ⟨.failure (.unpack detail), { consulted := some r.identity }, s⟩ := by
  cases hp : plaintextOf lookup channel r with
  | ok v =>
    obtain ⟨k, hk, hv⟩ := plaintextOf_eq_ok_iff.1 hp
    exact absurd ⟨r, k, v, hr, hk, hv⟩ h
  | error refusal =>
    obtain ⟨detail, rfl⟩ := plaintextOf_eq_error hp
    exact ⟨detail, by simp only [dispatch_eq, hr, hp]⟩

/-- A body either leaves the handlers alone, or it is a request whose key opens the envelope to an
operation, and the handler of its method is called with its parameters. -/
theorem dispatch_cases (d : Dispatcher σ) (lookup : Lookup) (channel : Channel) (body : Bytes) (s : σ) :
    (d.dispatch lookup channel body s).state = s ∨
    ∃ r k v o h, requestOf body = .ok r ∧ lookup r.identity = .ok k ∧ channel k r.envelope = .ok v ∧
      operationOf v = .ok o ∧ d.handlers.get? o.method = some h ∧
      (d.dispatch lookup channel body s).response = responseTo (h o.parameters s).1 ∧
      (d.dispatch lookup channel body s).state = (h o.parameters s).2 := by
  cases hr : requestOf body with
  | error e => exact .inl (by simp only [dispatch_eq, hr])
  | ok r =>
    cases hp : plaintextOf lookup channel r with
    | error e => exact .inl (by simp only [dispatch_eq, hr, hp])
    | ok v =>
      obtain ⟨k, hk, hv⟩ := plaintextOf_eq_ok_iff.1 hp
      cases ho : operationOf v with
      | error e => exact .inl (by simp only [dispatch_eq, hr, hp, ho])
      | ok o =>
        cases hh : d.handlers.get? o.method with
        | none => exact .inl (by simp only [dispatch_eq, hr, hp, ho, perform, hh])
        | some h =>
          refine .inr ⟨r, k, v, o, h, rfl, hk, hv, ho, hh, ?_, ?_⟩
          · simp only [dispatch_eq, hr, hp, ho, perform, hh]
          · simp only [dispatch_eq, hr, hp, ho, perform, hh]

theorem dispatch_of_operation {v : Json} {o : Operation} (d : Dispatcher σ) (s : σ)
    (hr : requestOf body = .ok r) (hv : plaintextOf lookup channel r = .ok v) (ho : operationOf v = .ok o) :
    d.dispatch lookup channel body s = d.perform o { consulted := some r.identity } s := by
  simp only [dispatch_eq, hr, hv, ho]

theorem dispatch_of_not_operation {v : Json} {refusal : Refusal} {mismatch : Option Schema.Mismatch}
    (d : Dispatcher σ) (s : σ) (hr : requestOf body = .ok r)
    (hv : plaintextOf lookup channel r = .ok v) (ho : operationOf v = .error (refusal, mismatch)) :
    d.dispatch lookup channel body s =
      ⟨.failure refusal, { consulted := some r.identity, mismatch }, s⟩ := by
  simp only [dispatch_eq, hr, hv, ho]

section

variable {o : Operation} {h : Handler σ} (d : Dispatcher σ) (trace : Trace) (s : σ)

theorem perform_of_none (hh : d.handlers.get? o.method = none) : d.perform o trace s =
    ⟨.failure (.unknownOperation o.method), { trace with method := some o.method }, s⟩ := by
  rw [perform, hh]

theorem perform_of_some (hh : d.handlers.get? o.method = some h) : d.perform o trace s =
    ⟨responseTo (h o.parameters s).1,
      { trace with method := some o.method, invoked := some (o.method, o.parameters) },
      (h o.parameters s).2⟩ := by
  rw [perform, hh]

end

end Dispatcher

abbrev Call := String × Parameters

def Handler.recorded (name : String) (h : Handler σ) : Handler (σ × List Call) :=
  fun parameters s ↦
    ((h parameters s.1).1, (h parameters s.1).2, s.2 ++ [(name, parameters)])

namespace Dispatcher

def recorded (d : Dispatcher σ) : Dispatcher (σ × List Call) :=
  { d with handlers := d.handlers.map Handler.recorded }

theorem get?_recorded (d : Dispatcher σ) (name : String) :
    d.recorded.handlers.get? name = (d.handlers.get? name).map (Handler.recorded name) :=
  Catalog.get?_map _ _ _

/-- Writing down the calls changes nothing else. -/
theorem dispatch_recorded (d : Dispatcher σ) (lookup : Lookup) (channel : Channel) (body : Bytes)
    (s : σ) (calls : List Call) :
    (d.recorded.dispatch lookup channel body (s, calls)).response =
        (d.dispatch lookup channel body s).response ∧
      (d.recorded.dispatch lookup channel body (s, calls)).trace =
        (d.dispatch lookup channel body s).trace ∧
      (d.recorded.dispatch lookup channel body (s, calls)).state.1 =
        (d.dispatch lookup channel body s).state := by
  rw [dispatch_eq, dispatch_eq]
  split
  · exact ⟨rfl, rfl, rfl⟩
  · dsimp only
    split
    · exact ⟨rfl, rfl, rfl⟩
    · split
      · exact ⟨rfl, rfl, rfl⟩
      next o _ =>
        simp only [perform, recorded, Catalog.get?_map]
        cases d.handlers.get? o.method <;> exact ⟨rfl, rfl, rfl⟩

end Dispatcher

end Gatekeeper
