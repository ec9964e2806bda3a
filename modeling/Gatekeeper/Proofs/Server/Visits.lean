import Gatekeeper.Proofs.Dispatch.Asking

namespace Gatekeeper

variable {σ : Type}

structure Arrival where
  now : Nat
  body : Bytes
  lookup : Lookup

namespace Arrival

/-- The operation that an arrival asks for, as the store is then: the body makes a request whose identity has
a key, and the key opens the envelope to the operation. -/
def Asks (a : Arrival) (o : Operation) : Prop :=
  ∃ (r : Request) (k : Key) (v : Json),
    r.MadeBy a.body ∧ a.lookup r.identity = .ok k ∧ r.envelope.unpack k = .ok v ∧ o.WrittenIn v

def operation? (a : Arrival) : Option Operation :=
  match Dispatcher.requestOf a.body with
  | .error _ => none
  | .ok r =>
    match Dispatcher.plaintextOf a.lookup (fun k e ↦ e.unpack k) r with
    | .error _ => none
    | .ok v => (Dispatcher.operationOf v).toOption

theorem operation?_eq_some_iff {a : Arrival} {o : Operation} : a.operation? = some o ↔ a.Asks o := by
  constructor
  · intro h
    unfold operation? at h
    split at h
    · cases h
    next r hr =>
      split at h
      · cases h
      next v hv =>
        obtain ⟨k, hk, hopen⟩ := Dispatcher.plaintextOf_eq_ok_iff.1 hv
        cases ho : Dispatcher.operationOf v with
        | error e =>
          rw [ho] at h
          cases h
        | ok o' =>
          rw [ho] at h
          cases h
          exact ⟨r, k, v, Dispatcher.requestOf_eq_ok_iff.1 hr, hk, hopen,
            Dispatcher.operationOf_eq_ok_iff.1 ho⟩
  · rintro ⟨r, k, v, hr, hk, hopen, ho⟩
    have hr := Dispatcher.requestOf_eq_ok_iff.2 hr
    have hv : Dispatcher.plaintextOf a.lookup (fun k e ↦ e.unpack k) r = .ok v :=
      Dispatcher.plaintextOf_eq_ok_iff.2 ⟨k, hk, hopen⟩
    have ho := Dispatcher.operationOf_eq_ok_iff.2 ho
    simp only [operation?, hr, hv, ho]
    rfl

theorem Asks.unique {a : Arrival} {o o' : Operation} (h : a.Asks o) (h' : a.Asks o') : o = o' :=
  Option.some.inj ((operation?_eq_some_iff.2 h).symm.trans (operation?_eq_some_iff.2 h'))

end Arrival

/-- How an arrival is dealt with: the state of the handlers before, and what is done. -/
structure Visit (σ : Type) where
  arrival : Arrival
  before : σ
  done : Dispatched σ

namespace Visit

def after (v : Visit σ) : σ := v.done.state

def response (v : Visit σ) : Response := v.done.response

def request (v : Visit σ) : Nat × Bytes := (v.arrival.now, v.arrival.body)

def Fails (v : Visit σ) : Prop := v.response.isSuccess = false

end Visit

namespace Dispatcher

def visit (d : Dispatcher σ) (s : σ) (a : Arrival) : Visit σ :=
  ⟨a, s, (d.handle a.lookup (fun k e ↦ e.unpack k) a.body s).1⟩

def visits (d : Dispatcher σ) : σ → List Arrival → List (Visit σ)
  | _, [] => []
  | s, a :: as => d.visit s a :: visits d (d.visit s a).after as

theorem visit_of_asks (d : Dispatcher σ) (s : σ) {a : Arrival} {o : Operation} (h : a.Asks o) :
    ∃ trace, (d.visit s a).done = d.perform o trace s := by
  obtain ⟨r, k, v, hr, hk, hopen, ho⟩ := h
  exact ⟨_, d.dispatch_of_operation s (requestOf_eq_ok_iff.2 hr)
    (plaintextOf_eq_ok_iff.2 ⟨k, hk, hopen⟩) (operationOf_eq_ok_iff.2 ho)⟩

theorem visit_of_not_asks (d : Dispatcher σ) (s : σ) {a : Arrival} (h : ∀ o, ¬ a.Asks o) :
    (d.visit s a).Fails ∧ (d.visit s a).after = s := by
  change (d.dispatch a.lookup (fun k e ↦ e.unpack k) a.body s).response.isSuccess = false ∧
    (d.dispatch a.lookup (fun k e ↦ e.unpack k) a.body s).state = s
  -- It is stopped at its request, at its envelope or at its operation, each before any handler is called.
  cases hr : requestOf a.body with
  | error e =>
    rw [dispatch_of_not_request d a.lookup _ s hr]
    exact ⟨rfl, rfl⟩
  | ok r =>
    by_cases hopens : Opens a.lookup (fun k e ↦ e.unpack k) a.body
    · obtain ⟨r', k, v, hr', hk, hv⟩ := hopens
      cases ho : operationOf v with
      | error e =>
        rw [d.dispatch_of_not_operation s hr' (plaintextOf_eq_ok_iff.2 ⟨k, hk, hv⟩) ho]
        exact ⟨rfl, rfl⟩
      | ok o =>
        have hasks : a.Asks o := ⟨r', k, v, requestOf_eq_ok_iff.1 hr', hk, hv, operationOf_eq_ok_iff.1 ho⟩
        exact absurd hasks (h o)
    · obtain ⟨detail, hdone⟩ := d.dispatch_of_not_opens s hr hopens
      rw [hdone]
      exact ⟨rfl, rfl⟩

def FailsCleanly (d : Dispatcher σ) : Prop := ∀ s a, (d.visit s a).Fails → (d.visit s a).after = s

end Dispatcher

/-- Some of the failed visits are left out. -/
inductive Thinned : List (Visit σ) → List (Visit σ) → Prop
  | nil : Thinned [] []
  | keep (v : Visit σ) {vs ws : List (Visit σ)} : Thinned vs ws → Thinned (v :: vs) (v :: ws)
  | drop (v : Visit σ) {vs ws : List (Visit σ)} : v.Fails → Thinned vs ws → Thinned (v :: vs) ws

theorem Thinned.subset {vs ws : List (Visit σ)} (h : Thinned vs ws) : ws ⊆ vs := by
  induction h with
  | nil => exact List.Subset.refl _
  | keep v _ ih => exact List.cons_subset_cons v ih
  | drop v _ _ ih => exact List.subset_cons_of_subset v ih

namespace Dispatcher

variable {d : Dispatcher σ} {s : σ} {as : List Arrival} {vs : List (Visit σ)} {v : Visit σ}

theorem visits_invariant {I : σ → Prop} (hstep : ∀ s a, I s → I (d.visit s a).after) (hs : I s)
    (hv : v ∈ d.visits s as) : I v.before ∧ v = d.visit v.before v.arrival := by
  induction as generalizing s with
  | nil => cases hv
  | cons a as ih =>
    rcases List.mem_cons.1 hv with rfl | hv
    · exact ⟨hs, rfl⟩
    · exact ih (hstep s a hs) hv

theorem eq_visit_of_mem (hv : v ∈ d.visits s as) : v = d.visit v.before v.arrival :=
  (visits_invariant (I := fun _ ↦ True) (fun _ _ _ ↦ trivial) trivial hv).2

theorem visits_split {past future : List (Visit σ)} (h : d.visits s as = past ++ v :: future) :
    ∃ as', future = d.visits v.after as' := by
  induction as generalizing s past with
  | nil => simp [visits] at h
  | cons a as ih =>
    cases past with
    | nil =>
      obtain ⟨rfl, rfl⟩ := List.cons.inj h
      exact ⟨as, rfl⟩
    | cons u past => exact ih (List.cons.inj h).2

/-- Where failures are clean, leaving some of them out leaves the other visits just as they were. -/
theorem visits_of_thinned (hd : d.FailsCleanly) {kept : List (Visit σ)}
    (h : Thinned (d.visits s as) kept) : d.visits s (kept.map Visit.arrival) = kept := by
  induction as generalizing s kept with
  | nil =>
    cases h
    rfl
  | cons a as ih =>
    rw [visits] at h
    cases h with
    | keep _ h =>
      rw [List.map_cons, visits]
      exact congrArg _ (ih h)
    | drop _ hfails h =>
      -- The run goes on from the state that the failure was met with.
      rw [hd s a hfails] at h
      exact ih h

end Dispatcher

namespace Server

def serve (s : Server σ) : σ → Disk → List (Nat × Bytes) → List (Visit σ)
  | _, _, [] => []
  | state, d, (now, body) :: rest =>
    s.dispatcher.visit state ⟨now, body, s.store.lookup d⟩ ::
      serve s (s.process now body state d).state (s.process now body state d).disk rest

variable {s : Server σ} {state : σ} {d : Disk} {requests : List (Nat × Bytes)} {lookup : Lookup}

theorem serve_eq_visits (s : Server σ) (state : σ) (d : Disk) (requests : List (Nat × Bytes)) :
    s.serve state d requests =
      s.dispatcher.visits state ((s.serve state d requests).map Visit.arrival) := by
  induction requests generalizing state d with
  | nil => rfl
  | cons r rest ih =>
    have hafter : (s.process r.1 r.2 state d).state =
        (s.dispatcher.visit state ⟨r.1, r.2, s.store.lookup d⟩).after := by
      rw [process_eq]
      rfl
    rw [serve, List.map_cons, Dispatcher.visits, hafter]
    exact congrArg _ (ih _ _)

theorem map_request_serve (s : Server σ) (state : σ) (d : Disk) (requests : List (Nat × Bytes)) :
    (s.serve state d requests).map Visit.request = requests := by
  induction requests generalizing state d with
  | nil => rfl
  | cons r rest ih =>
    rw [serve, List.map_cons, ih]
    rfl

/-- Whatever is sent to the server, its store keeps answering as it does now. -/
def StoreStays (s : Server σ) (state : σ) (d : Disk) : Prop :=
  ∀ requests, ∀ v ∈ s.serve state d requests, v.arrival.lookup = s.store.lookup d

theorem arrival_eq_of_mem {v : Visit σ} (h : s.StoreStays state d) (hv : v ∈ s.serve state d requests) :
    v.arrival = ⟨v.request.1, v.request.2, s.store.lookup d⟩ := by
  have hlookup := h requests v hv
  obtain ⟨⟨now, body, lookup⟩, before, done⟩ := v
  exact congrArg (Arrival.mk now body) hlookup

theorem serve_of_storeStays (h : s.StoreStays state d) (requests : List (Nat × Bytes)) :
    s.serve state d requests =
      s.dispatcher.visits state (requests.map fun r ↦ ⟨r.1, r.2, s.store.lookup d⟩) := by
  have harrivals : (s.serve state d requests).map Visit.arrival =
      ((s.serve state d requests).map Visit.request).map fun r ↦ ⟨r.1, r.2, s.store.lookup d⟩ := by
    rw [List.map_map]
    exact List.map_congr_left fun v hv ↦ arrival_eq_of_mem h hv
  rw [serve_eq_visits, harrivals, map_request_serve]

theorem serve_of_thinned (hclean : s.dispatcher.FailsCleanly) (h : s.StoreStays state d)
    {kept : List (Visit σ)} (hkept : Thinned (s.serve state d requests) kept) :
    s.serve state d (kept.map Visit.request) = kept := by
  have harrivals : (kept.map Visit.request).map (fun r ↦ ⟨r.1, r.2, s.store.lookup d⟩) =
      kept.map Visit.arrival := by
    rw [List.map_map]
    exact List.map_congr_left fun v hv ↦ (arrival_eq_of_mem h (hkept.subset hv)).symm
  rw [serve_of_storeStays h, harrivals]
  rw [serve_eq_visits] at hkept
  exact Dispatcher.visits_of_thinned hclean hkept

theorem storeStays_memory {keys : KeyStore} (h : s.store = .memory keys) (state : σ) (d : Disk) :
    s.StoreStays state d := by
  intro requests
  induction requests generalizing state d with
  | nil => simp [serve]
  | cons r rest ih =>
    intro v hv
    rcases List.mem_cons.1 hv with rfl | hv
    · rfl
    · have hlookup := ih _ _ v hv
      rw [h] at hlookup ⊢
      exact hlookup

theorem start_eq_ok {now : Nat} {c : Configuration} {modules : ModuleRegistry σ} {d d' : Disk}
    {started : Started σ} (h : start now c modules d = (.ok started, d')) :
    ∃ store d₁ audit d₂ endpoints dispatcher, openStore c d = (.ok store, d₁) ∧
      openSink c.server.audit d₁ = (.ok audit, d₂) ∧
      Dispatcher.setUp c.service endpoints modules = .ok dispatcher ∧
      started.server.store = store ∧ started.server.audit = audit ∧ started.server.dispatcher = dispatcher ∧
      d' = (audit.record now dispatcher.startupEvent d₂).2 := by
  unfold start at h
  split at h
  · cases h
  · split at h
    · cases h
    next store d₁ hstore =>
      split at h
      · cases h
      next hwith =>
        cases h
        unfold startWith at hwith
        split at hwith
        · cases hwith
        next endpoints _ =>
          split at hwith
          · cases hwith
          next audit d₂ hsink =>
            split at hwith
            · cases hwith
            next dispatcher hsetUp =>
              cases hwith
              exact ⟨store, d₁, audit, d₂, endpoints, dispatcher, hstore, hsink, hsetUp, rfl, rfl, rfl, rfl⟩

end Server

namespace Dispatcher

theorem instantiate_of_setUp {settings : ServiceSettings} {endpoints : EndpointRegistry}
    {modules : ModuleRegistry σ} {d : Dispatcher σ} {name : String} {m : OperationModule σ}
    (h : setUp settings endpoints modules = .ok d) (hname : settings.operationsModule = some name)
    (hm : modules.get? name = some m) : m.instantiate settings.settings = .ok d.handlers := by
  simp only [setUp, hname, hm] at h
  split at h
  · cases h
  next handlers hbuilt =>
    cases h
    exact hbuilt

end Dispatcher

end Gatekeeper
