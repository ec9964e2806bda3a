import Gatekeeper.Proofs.Database.Again
import Gatekeeper.Proofs.Server.Visits

namespace Gatekeeper

open Disk Engine

variable {σ : Type} {d d' : Disk} {c : Connection} {a : AuditSink}

/-- Whether the audit log is none of the files of a database, and the name of the log of the database does
not lead to the database itself. -/
def Connection.KeepsApart (c : Connection) (a : AuditSink) (d : Disk) : Prop :=
  ∀ s, d.session? c.session = some s → LogApart d s ∧ ∀ n, a = .file n → IsElsewhere n d s

def Server.KeepsApart (s : Server σ) (d : Disk) : Prop :=
  match s.store with
  | .memory _ => True
  | .database c => c.KeepsApart s.audit d

theorem Server.keepsApart_memory {s : Server σ} {keys : KeyStore} (h : s.store = .memory keys) (d : Disk) :
    s.KeepsApart d := by
  rw [Server.KeepsApart, h]
  trivial

namespace Connection

theorem record_cases (a : AuditSink) (now : Nat) (e : AuditEvent) (d : Disk) :
    (a.record now e d).2 = d ∨ ∃ n b, a = .file n ∧ (a.record now e d).2 = d.setContent n b := by
  cases a with
  | none => exact .inl rfl
  | errors => exact .inl rfl
  | file n =>
    simp only [AuditSink.record, append]
    split
    · exact .inr ⟨n, _, rfl, rfl⟩
    · exact .inl rfl

theorem keepsApart_record (now : Nat) (e : AuditEvent) :
    c.KeepsApart a (a.record now e d).2 ↔ c.KeepsApart a d := by
  rcases record_cases a now e d with hd' | ⟨n, b, -, hd'⟩
  · rw [hd']
  · simp only [hd', KeepsApart, isElsewhere_setContent]
    rfl

structure IsUndisturbed (c : Connection) (a : AuditSink) (T : Database) (r : Except EngineFault Database)
    (d : Disk) : Prop where
  rests : Rests d c.session T r
  apart : c.KeepsApart a d

variable {T : Database} {r : Except EngineFault Database}

theorem IsUndisturbed.lookup (h : c.IsUndisturbed a T r d) (i : Identity) :
    (c.lookup d i).1 = found r i ∧ c.IsUndisturbed a T r (c.lookup d i).2 := by
  obtain ⟨hfound, hrests, hd'⟩ := lookup_rests h.rests i
  refine ⟨hfound, hrests, ?_⟩
  rcases hd' with hd' | ⟨q, hd'⟩
  · rw [hd']
    exact h.apart
  · rw [hd']
    intro s hs
    rw [session?_congr (sessions_unlink d q)] at hs
    obtain ⟨hlog, helsewhere⟩ := h.apart s hs
    exact ⟨fun p hp hn ↦ hlog p hp (node?_unlink hn), fun n hn ↦ (helsewhere n hn).unlink q⟩

theorem IsUndisturbed.record (h : c.IsUndisturbed a T r d) (now : Nat) (e : AuditEvent) :
    c.IsUndisturbed a T r (a.record now e d).2 := by
  refine ⟨?_, (keepsApart_record now e).2 h.apart⟩
  rcases record_cases a now e d with hd' | ⟨n, b, hn, hd'⟩
  · rw [hd']
    exact h.rests
  · rw [hd']
    exact h.rests.setContent (fun s hs ↦ (h.apart s hs).2 n hn) b

end Connection

namespace Server

variable {s : Server σ} {state : σ}

theorem process_undisturbed {T : Database} {r : Except EngineFault Database} (hstore : s.store = .database c)
    (h : c.IsUndisturbed s.audit T r d) (now : Nat) (body : Bytes) (state : σ) :
    c.IsUndisturbed s.audit T r (s.process now body state d).disk := by
  simp only [process_eq, Ask.after, hstore]
  split
  next i _ => exact (h.lookup i).2.record now _
  · exact h.record now _

/-- A store stays as long as something holds with which it answers as it does now. -/
theorem storeStays_of_invariant {I : Disk → Prop} (hd : I d)
    (hstep : ∀ d state now body, I d → I (s.process now body state d).disk)
    (hlookup : ∀ d', I d' → s.store.lookup d' = s.store.lookup d) : s.StoreStays state d := by
  suffices h : ∀ requests state d', I d' → ∀ v ∈ s.serve state d' requests,
      v.arrival.lookup = s.store.lookup d from fun requests ↦ h requests state d hd
  intro requests
  induction requests with
  | nil => simp [serve]
  | cons r rest ih =>
    intro state d' hd' v hv
    rcases List.mem_cons.1 hv with rfl | hv
    · exact hlookup d' hd'
    · exact ih _ _ (hstep d' state r.1 r.2 hd') v hv

theorem openDatabase_of_openStore {configuration : Configuration}
    (h : openStore configuration d = (.ok (.database c), d')) :
    ∃ settings, Connection.openDatabase d settings = (.opened c, d') := by
  unfold openStore at h
  split at h
  · cases hseeded : seededStore configuration.store.keys with
    | error e => simp [hseeded, Except.map] at h
    | ok keys => simp [hseeded, Except.map] at h
  · cases h
  next settings _ _ =>
    split at h
    next hopen =>
      cases h
      exact ⟨settings, hopen⟩
    · cases h
    · cases h

theorem openSink_cases {settings : AuditSettings} (h : openSink settings d = (.ok a, d')) :
    d' = d ∨ ∃ p n, d.openAt? p = some (n, d') := by
  unfold openSink at h
  split at h
  · cases h
    exact .inl rfl
  · cases h
    exact .inl rfl
  · split at h
    next hopen =>
      cases h
      obtain ⟨p, -, hopen⟩ := Option.bind_eq_some_iff.1 hopen
      exact .inr ⟨p, _, hopen⟩
    · cases h

theorem undisturbed_of_start {now : Nat} {configuration : Configuration} {modules : ModuleRegistry σ}
    {started : Started σ} (hd : d.WellFormed)
    (h : start now configuration modules d = (.ok started, d')) (hstore : started.server.store = .database c)
    (hapart : c.KeepsApart started.server.audit d') : ∃ T r, c.IsUndisturbed started.server.audit T r d' := by
  obtain ⟨store, d₁, audit, d₂, endpoints, dispatcher, hopen, hsink, -, rfl, rfl, -, rfl⟩ := start_eq_ok h
  rw [hstore] at hopen
  obtain ⟨settings, hopen⟩ := openDatabase_of_openStore hopen
  have hapart₂ := (Connection.keepsApart_record now dispatcher.startupEvent).1 hapart
  have hsink := openSink_cases hsink
  obtain ⟨T, hsteady⟩ : ∃ T, Steady d₂ c.session T := by
    rcases hsink with rfl | ⟨p, n, hsink⟩
    · exact Connection.openDatabase_steady hd hopen fun s hs ↦ (hapart₂ s hs).1
    · obtain ⟨T, hsteady⟩ := Connection.openDatabase_steady hd hopen fun s hs q hq hn ↦
        (hapart₂ s ((session?_congr (sessions_openAt? hsink) _).trans hs)).1 q hq (node?_openAt? hsink hn)
      exact ⟨T, hsteady.openAt? hsink⟩
  obtain ⟨r, hrests⟩ := hsteady.rests
  exact ⟨T, r, Connection.IsUndisturbed.record ⟨hrests, hapart₂⟩ now _⟩

/-- A server that was just started finds in its store what is there now, whatever it is sent. -/
theorem storeStays_of_start {now : Nat} {configuration : Configuration} {modules : ModuleRegistry σ}
    {started : Started σ} (hd : d.WellFormed) (h : start now configuration modules d = (.ok started, d'))
    (hapart : started.server.KeepsApart d') (state : σ) : started.server.StoreStays state d' := by
  cases hstore : started.server.store with
  | memory keys => exact storeStays_memory hstore state d'
  | database c =>
    rw [KeepsApart, hstore] at hapart
    obtain ⟨T, r, hundisturbed⟩ := undisturbed_of_start hd h hstore hapart
    have hfound {e : Disk} (he : c.IsUndisturbed started.server.audit T r e) :
        started.server.store.lookup e = Connection.found r := by
      rw [hstore]
      exact funext fun i ↦ (he.lookup i).1
    refine storeStays_of_invariant hundisturbed (fun e state now body he ↦ ?_) fun e he ↦ ?_
    · exact process_undisturbed hstore he now body state
    · rw [hfound he, hfound hundisturbed]

end Server

end Gatekeeper
