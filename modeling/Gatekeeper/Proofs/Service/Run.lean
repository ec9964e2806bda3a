import Gatekeeper.Proofs.Dispatch.Pipeline
import Gatekeeper.Proofs.Service.Vault

namespace Gatekeeper

variable {σ : Type}

structure Service (σ : Type) where
  dispatcher : Dispatcher σ
  vault : Vault
  state : σ
  calls : List Call := []

inductive Service.Event where
  | insert (i : Identity) (k : Key)
  | mint (i : Identity) (fresh : Key)
  | revoke (i : Identity)
  | request (body : Bytes)

inductive Service.Answer where
  | inserted (r : Except StoreError Unit)
  | minted (r : Except StoreError Key)
  | revoked (r : Except StoreError Bool)
  | response (r : Response)

namespace Service

def handle (s : Service σ) (body : Bytes) : Dispatched (σ × List Call) :=
  (s.dispatcher.recorded.handle s.vault.lookup (fun k e ↦ e.unpack k) body (s.state, s.calls)).1

def step (s : Service σ) : Event → Answer × Service σ
  | .insert i k => (.inserted (s.vault.insert i k).1, { s with vault := (s.vault.insert i k).2 })
  | .mint i fresh => (.minted (s.vault.mint i fresh).1, { s with vault := (s.vault.mint i fresh).2 })
  | .revoke i => (.revoked (s.vault.revoke i).1, { s with vault := (s.vault.revoke i).2 })
  | .request body =>
    let done := s.handle body
    (.response done.response,
      { s with
        vault := s.vault.consult done.trace.consulted
        state := done.state.1
        calls := done.state.2 })

structure Moment (σ : Type) where
  before : Service σ
  event : Event
  answer : Answer
  after : Service σ

def moment (s : Service σ) (e : Event) : Moment σ := ⟨s, e, (s.step e).1, (s.step e).2⟩

def history (s : Service σ) : List Event → List (Moment σ)
  | [] => []
  | e :: es => s.moment e :: history (s.step e).2 es

variable {s : Service σ} {m : Moment σ}

theorem step_request (s : Service σ) (body : Bytes) :
    let done := (s.dispatcher.handle s.vault.lookup (fun k e ↦ e.unpack k) body s.state).1
    (s.step (.request body)).1 = .response done.response ∧
      (s.step (.request body)).2.state = done.state ∧
      (s.step (.request body)).2.vault = s.vault.consult done.trace.consulted := by
  obtain ⟨hresponse, htrace, hstate⟩ :=
    s.dispatcher.dispatch_recorded s.vault.lookup (fun k e ↦ e.unpack k) body s.state s.calls
  refine ⟨congrArg Answer.response hresponse, hstate, ?_⟩
  exact congrArg (fun trace : Trace ↦ s.vault.consult trace.consulted) htrace

theorem history_invariant {I : Service σ → Prop} (hstep : ∀ s e, I s → I (s.step e).2) (hs : I s)
    (es : List Event) (hm : m ∈ s.history es) :
    ∃ t e, I t ∧ m = t.moment e := by
  induction es generalizing s with
  | nil => simp [history] at hm
  | cons e es ih =>
    rcases List.mem_cons.1 hm with rfl | hm
    · exact ⟨s, e, hs, rfl⟩
    · exact ih (hstep s e hs) hm

theorem history_split {es : List Event} {past future : List (Moment σ)}
    (h : s.history es = past ++ m :: future) :
    m = m.before.moment m.event ∧ ∃ es', future = m.after.history es' := by
  induction es generalizing s past with
  | nil => simp [history] at h
  | cons e es ih =>
    cases past with
    | nil =>
      obtain ⟨rfl, rfl⟩ := List.cons.inj h
      exact ⟨rfl, es, rfl⟩
    | cons n past =>
      obtain ⟨-, h⟩ := List.cons.inj h
      exact ih h

end Service

end Gatekeeper
