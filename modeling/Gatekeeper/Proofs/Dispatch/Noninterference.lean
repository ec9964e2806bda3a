import Gatekeeper.Proofs.Database.Untrusted
import Gatekeeper.Proofs.Dispatch.Pipeline
import Gatekeeper.Server.Startup

namespace Gatekeeper

variable {σ : Type}

/-- What is found of a request behind the name in it: nothing, a row of a wrong length, or a key, which opens
the envelope or does not. -/
inductive Finding where
  | unknown
  | wrongLength (n : Nat)
  | key (opened : Except ChannelError Json)

inductive ServedStore.Finds (store : ServedStore) (disk : Disk) (channel : Channel) (r : Request) :
    Finding → Prop
  | unknown {name : String} : store.lookup disk r.identity = .error (.notFound name) →
    Finds store disk channel r .unknown
  | wrongLength {c : Connection} {T : Database} {table : KeyTable} {bytes : Bytes} : store = .database c →
    ((Engine.read c.session).run disk).1 = .ok T → T.keys = some table →
    table.get? r.identity.name = some (.blob bytes) → bytes.length ≠ 32 →
    Finds store disk channel r (.wrongLength bytes.length)
  | key {k : Key} : store.lookup disk r.identity = .ok k →
    Finds store disk channel r (.key (channel k r.envelope))

def wrongLengthDetail (fingerprint : String) (n : Nat) : String :=
  "capability store error: " ++ ("sqlite store corruption: key for identity " ++ fingerprint ++
    ": capability key must be 32 bytes, got " ++ toString n)

theorem StoreError.anonymous_notFound (name : String) :
    (StoreError.notFound name).anonymous = "capability not found" := rfl

theorem StoreError.anonymous_backend (message : String) :
    (StoreError.backend message).anonymous = "capability store error: " ++ message := by
  unfold anonymous
  simp [toString]

namespace Dispatcher

variable {channel : Channel} {body : Bytes} {r : Request} {store : ServedStore} {disk : Disk}
  {finding : Finding}

/-- The answer to a request, from what was found of it; a fingerprint stands in for its identity. -/
def answerFor (d : Dispatcher σ) (s : σ) (fingerprint : String) : Finding → Response × Trace
  | .unknown => (.failure (.unpack "capability not found"), {})
  | .wrongLength n => (.failure (.unpack (wrongLengthDetail fingerprint n)), {})
  | .key (.error e) => (.failure (.unpack e.message), {})
  | .key (.ok v) =>
    match operationOf v with
    | .error (refusal, mismatch) => (.failure refusal, { mismatch })
    | .ok o => ((d.perform o {} s).response, (d.perform o {} s).trace)

def eventFor (d : Dispatcher σ) (s : σ) (requestBytes : Nat) (fingerprint : String) (finding : Finding) :
    RequestEvent :=
  let answer := d.answerFor s fingerprint finding
  { eventOf answer.1 answer.2 requestBytes with fingerprint := some fingerprint }

theorem answerFor_congr (d : Dispatcher σ) (s : σ) (f f' : String) (h : ∀ n, finding ≠ .wrongLength n) :
    d.answerFor s f finding = d.answerFor s f' finding := by
  cases finding with
  | wrongLength n => exact absurd rfl (h n)
  | unknown => rfl
  | key opened =>
    cases opened with
    | error e => rfl
    | ok v => rfl

theorem eventOf_perform (d : Dispatcher σ) (o : Operation) (i : Identity) (s : σ) (n : Nat) :
    eventOf (d.perform o { consulted := some i } s).response (d.perform o { consulted := some i } s).trace n =
      { eventOf (d.perform o {} s).response (d.perform o {} s).trace n with
        fingerprint := some i.fingerprint } := by
  cases hh : d.handlers.get? o.method with
  | none =>
    rw [d.perform_of_none _ s hh, d.perform_of_none _ s hh]
    rfl
  | some h =>
    rw [d.perform_of_some _ s hh, d.perform_of_some _ s hh]
    rfl

theorem body_unpack (detail : String) : (Response.failure (.unpack detail)).body =
    Bytes.ofString "unknown exception while unpacking request" := rfl

theorem eventOf_unpack (detail detail' : String) (n : Nat) :
    eventOf (.failure (.unpack detail')) {} n =
      { eventOf (.failure (.unpack detail)) {} n with detail := some detail' } := by
  simp only [eventOf, body_unpack]
  rfl

theorem handle_of_refused {lookup : Lookup} {detail : String} (d : Dispatcher σ) (s : σ)
    (hr : r.MadeBy body) (hrefused : plaintextOf lookup channel r = .error (.unpack detail)) :
    (d.handle lookup channel body s).2 = .request
      { eventOf (.failure (.unpack detail)) {} body.length with fingerprint := some r.identity.fingerprint } := by
  have hrequest := requestOf_eq_ok_iff.2 hr
  simp only [handle_eq, dispatch_eq, hrequest, hrefused]
  rfl

theorem handle_of_finds (d : Dispatcher σ) (s : σ) (hr : r.MadeBy body)
    (h : store.Finds disk channel r finding) :
    (d.handle (store.lookup disk) channel body s).2 =
      .request (d.eventFor s body.length r.identity.fingerprint finding) := by
  have hrequest := requestOf_eq_ok_iff.2 hr
  cases h with
  | unknown hlookup =>
    have hrefused := plaintextOf_of_lookup_error (store.lookup disk) channel hlookup
    rw [StoreError.anonymous_notFound] at hrefused
    simp only [d.handle_of_refused s hr hrefused, eventFor, answerFor]
  | @wrongLength c T table bytes hstore hread hkeys hrow hlength =>
    -- The one failure whose words depend on the identity, and they name it by its fingerprint.
    subst hstore
    have hlookup := (Connection.lookup_of_read hread r.identity).trans
      (Database.lookup_of_wrongLength hkeys hrow hlength)
    have hrefused := plaintextOf_of_lookup_error ((ServedStore.database c).lookup disk) channel hlookup
    rw [StoreError.anonymous_backend] at hrefused
    simp only [d.handle_of_refused s hr hrefused, eventFor, answerFor]
    rfl
  | @key k hlookup =>
    cases hopen : channel k r.envelope with
    | error e =>
      have hrefused : plaintextOf (store.lookup disk) channel r = .error (.unpack e.message) := by
        simp only [plaintextOf_eq, hlookup, hopen]
      simp only [d.handle_of_refused s hr hrefused, eventFor, answerFor]
    | ok v =>
      have hplaintext : plaintextOf (store.lookup disk) channel r = .ok v :=
        plaintextOf_eq_ok_iff.2 ⟨k, hlookup, hopen⟩
      cases ho : operationOf v with
      | error e =>
        obtain ⟨refusal, mismatch⟩ := e
        simp only [handle_eq, d.dispatch_of_not_operation s hrequest hplaintext ho, eventFor, answerFor, ho]
        rfl
      | ok o =>
        simp only [handle_eq, d.dispatch_of_operation s hrequest hplaintext ho, eventFor, answerFor, ho,
          eventOf_perform]

/-- Two requests of one length, of which the same is found in two stores, leave one event but for their
fingerprints; only where the rows have a wrong length do the fingerprints stand in the detail too. -/
theorem audit_noninterference (d : Dispatcher σ) (s : σ) {r₁ r₂ : Request} {body₁ body₂ : Bytes}
    {store₁ store₂ : ServedStore} {disk₁ disk₂ : Disk} (hr₁ : r₁.MadeBy body₁) (hr₂ : r₂.MadeBy body₂)
    (hlength : body₁.length = body₂.length) (hfinds₁ : store₁.Finds disk₁ channel r₁ finding)
    (hfinds₂ : store₂.Finds disk₂ channel r₂ finding) :
    ∃ e₁ e₂ : RequestEvent, (d.handle (store₁.lookup disk₁) channel body₁ s).2 = .request e₁ ∧
      (d.handle (store₂.lookup disk₂) channel body₂ s).2 = .request e₂ ∧
      e₁.fingerprint = some r₁.identity.fingerprint ∧ e₂.fingerprint = some r₂.identity.fingerprint ∧
      ((∀ n, finding ≠ .wrongLength n) → e₂ = { e₁ with fingerprint := e₂.fingerprint }) ∧
      ∀ n, finding = .wrongLength n →
        e₂ = { e₁ with fingerprint := e₂.fingerprint, detail := e₂.detail } ∧
        e₁.detail = some (wrongLengthDetail r₁.identity.fingerprint n) ∧
        e₂.detail = some (wrongLengthDetail r₂.identity.fingerprint n) := by
  have hevent₁ := d.handle_of_finds s hr₁ hfinds₁
  rw [hlength] at hevent₁
  refine ⟨_, _, hevent₁, d.handle_of_finds s hr₂ hfinds₂, rfl, rfl, ?_, ?_⟩
  · -- The fingerprint is no part of the answer.
    intro hfinding
    rw [eventFor, d.answerFor_congr s _ r₁.identity.fingerprint hfinding]
    rfl
  · intro n hn
    subst hn
    refine ⟨?_, rfl, rfl⟩
    simp only [eventFor, answerFor]
    rw [eventOf_unpack (wrongLengthDetail r₁.identity.fingerprint n)]

theorem finds_of_row {c : Connection} {n : Nat} (channel : Channel) (bytes : Bytes)
    (hrow : (((Engine.read c.session).run disk).1.toOption.bind fun T ↦
      T.keys.bind (·.get? r.identity.name)) = some (.blob bytes)) (hn : bytes.length = n) (h : n ≠ 32) :
    (ServedStore.database c).Finds disk channel r (.wrongLength n) := by
  subst hn
  obtain ⟨T, hT, hcell⟩ := Option.bind_eq_some_iff.1 hrow
  obtain ⟨table, hkeys, hget⟩ := Option.bind_eq_some_iff.1 hcell
  exact .wrongLength rfl (toOption_eq_some_iff.1 hT) hkeys hget h

/-- Of two databases one has a row of thirty-one bytes for the one identity, and one for the other. -/
theorem audit_noninterference_wrongLength :
    ∃ (r₁ r₂ : Request) (store : ServedStore) (disk₁ disk₂ : Disk) (e₁ e₂ : RequestEvent),
      r₁.identity ≠ r₂.identity ∧ r₁.MadeBy r₁.toJson.renderBytes ∧ r₂.MadeBy r₂.toJson.renderBytes ∧
      r₁.toJson.renderBytes.length = r₂.toJson.renderBytes.length ∧
      store.Finds disk₁ (fun k e ↦ e.unpack k) r₁ (.wrongLength 31) ∧
      store.Finds disk₂ (fun k e ↦ e.unpack k) r₂ (.wrongLength 31) ∧
      ((⟨"basic", ∅, .empty⟩ : Dispatcher Unit).handle (store.lookup disk₁) (fun k e ↦ e.unpack k)
        r₁.toJson.renderBytes ()).2 = .request e₁ ∧
      ((⟨"basic", ∅, .empty⟩ : Dispatcher Unit).handle (store.lookup disk₂) (fun k e ↦ e.unpack k)
        r₂.toJson.renderBytes ()).2 = .request e₂ ∧
      e₂ = { e₁ with
        fingerprint := some r₂.identity.fingerprint
        detail := some (wrongLengthDetail r₂.identity.fingerprint 31) } := by
  let file (name : String) (b : UInt8) : Disk := (Disk.createFile {} ["k.db"] (.image
    ⟨.delete, ⟨some [.integer 1], some (KeyTable.insert ∅ name (.blob (List.replicate 31 b)))⟩⟩)).2
  let disk (name : String) (b : UInt8) : Disk :=
    (Connection.openDatabase (file name b) { path := "k.db" }).2
  let r (name : String) : Request := ⟨⟨name⟩, ⟨"", "", ""⟩⟩
  have hlength : (r "a").toJson.renderBytes.length = (r "b").toJson.renderBytes.length := by decide +kernel
  have hfinds₁ : (ServedStore.database ⟨0⟩).Finds (disk "a" 7) (fun k e ↦ e.unpack k) (r "a") (.wrongLength 31) :=
    finds_of_row _ (List.replicate 31 7) (by decide +kernel) rfl (by decide)
  have hfinds₂ : (ServedStore.database ⟨0⟩).Finds (disk "b" 8) (fun k e ↦ e.unpack k) (r "b") (.wrongLength 31) :=
    finds_of_row _ (List.replicate 31 8) (by decide +kernel) rfl (by decide)
  obtain ⟨e₁, e₂, he₁, he₂, -, hfingerprint, -, hwrong⟩ := audit_noninterference
    (⟨"basic", ∅, .empty⟩ : Dispatcher Unit) () (r "a").madeBy_toJson (r "b").madeBy_toJson hlength hfinds₁ hfinds₂
  obtain ⟨hevents, -, hdetail⟩ := hwrong 31 rfl
  rw [hfingerprint, hdetail] at hevents
  exact ⟨r "a", r "b", .database ⟨0⟩, disk "a" 7, disk "b" 8, e₁, e₂, by decide, (r "a").madeBy_toJson,
    (r "b").madeBy_toJson, hlength, hfinds₁, hfinds₂, he₁, he₂, hevents⟩

end Dispatcher

end Gatekeeper
