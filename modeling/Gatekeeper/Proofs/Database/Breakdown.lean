import Gatekeeper.Proofs.Database.Founded
import Gatekeeper.Settings.Configuration

namespace Gatekeeper

namespace Connection

variable {c : Connection} {d d' : Disk} {s : DatabaseSettings}

/-- The opening of a database gets past its path, its directory, its file and its journal; the wait is what
is set next. -/
def ReachesWait (d : Disk) (s : DatabaseSettings) : Prop :=
  ∃ w d₁ d₂ k, checkPath d s.path = .ok () ∧ makeParent d s.path = (true, w) ∧
    (Engine.connect s.path).run w = (.ok k, d₁) ∧ (Engine.turn k s.journalMode).run d₁ = (.ok (), d₂)

theorem setUp_breakdown_iff : (c.setUp d s).1 = .breakdown ↔
    2147483647 < s.busyTimeoutMs ∧ ∃ d₂, (Engine.turn c.session s.journalMode).run d = (.ok (), d₂) := by
  unfold setUp
  split
  next hturn =>
    constructor
    · intro h
      cases h
    · rintro ⟨-, d₂, hturn'⟩
      cases hturn.symm.trans hturn'
  next d₁ hturn =>
    split
    next hwait => exact ⟨fun _ ↦ ⟨hwait, d₁, hturn⟩, fun _ ↦ rfl⟩
    next hwait =>
      constructor
      · intro h
        split at h <;> cases h
      · intro h
        exact absurd h.1 hwait

theorem openDatabase_breakdown_iff :
    (openDatabase d s).1 = .breakdown ↔ 2147483647 < s.busyTimeoutMs ∧ ReachesWait d s := by
  constructor
  · intro h
    have hopens := opens d s
    generalize openDatabase d s = done at h hopens
    cases hopens with
    | badPath | noParent | noFile => cases h
    | connected hcheck hmake hconnect =>
      obtain ⟨hwait, d₂, hturn⟩ := setUp_breakdown_iff.1 h
      exact ⟨hwait, _, _, d₂, _, hcheck, hmake, hconnect, hturn⟩
  · rintro ⟨hwait, w, d₁, d₂, k, hcheck, hmake, hconnect, hturn⟩
    have hset : openDatabase d s = setUp ⟨k⟩ d₁ s := by simp only [openDatabase, hcheck, hmake, hconnect]
    rw [hset]
    exact setUp_breakdown_iff.2 ⟨hwait, d₂, hturn⟩

theorem reachesWait_of_opened (h : openDatabase d s = (.opened c, d')) : ReachesWait d s := by
  obtain ⟨w, d₁, d₂, hcheck, hmake, hconnect, hturn, -⟩ := openDatabase_eq_opened h
  exact ⟨w, d₁, d₂, c.session, hcheck, hmake, hconnect, hturn⟩

end Connection

namespace Configuration

open Connection

def waiting (c : Configuration) (n : Nat) : Configuration :=
  { c with store := { c.store with busyTimeoutMs := n } }

theorem check_waiting (c : Configuration) (n : Nat) : (c.waiting n).check = c.check := rfl

theorem database?_waiting {c : Configuration} {s : DatabaseSettings} (h : c.store.database? = some s) (n : Nat) :
    (c.waiting n).store.database? = some { s with busyTimeoutMs := n } := by
  unfold StoreSettings.database? at h ⊢
  dsimp only [waiting]
  split at h
  · cases h
    rfl
  · cases h

/-- A database whose settings passed the check is opened or refused on every disk if the wait has at most 31
bits. A longer wait breaks the engine down wherever the opening gets as far as to set it, so wherever a shorter
one would let it succeed, and the check passes whatever the wait is. -/
theorem breakdown_exactly_of_wait {c : Configuration} {s : DatabaseSettings} (hcheck : c.check = .ok ())
    (hs : c.store.database? = some s) (d : Disk) :
    (s.busyTimeoutMs ≤ 2147483647 →
      (∃ opened, (openDatabase d s).1 = .opened opened) ∨ ∃ e, (openDatabase d s).1 = .refused e) ∧
    ((openDatabase d s).1 = .breakdown ↔ 2147483647 < s.busyTimeoutMs ∧ ReachesWait d s) ∧
    ∀ n, (c.waiting n).check = .ok () ∧ ∃ t, (c.waiting n).store.database? = some t ∧
      (2147483647 < n → (∃ opened, (openDatabase d s).1 = .opened opened) → (openDatabase d t).1 = .breakdown) := by
  refine ⟨fun hwait ↦ ?_, openDatabase_breakdown_iff, fun n ↦ ?_⟩
  · cases hdone : (openDatabase d s).1 with
    | opened opened => exact .inl ⟨opened, rfl⟩
    | refused e => exact .inr ⟨e, rfl⟩
    | breakdown => exact absurd hwait (Nat.not_le.2 (openDatabase_breakdown_iff.1 hdone).1)
  · refine ⟨(c.check_waiting n).trans hcheck, _, database?_waiting hs n, fun hn ⟨opened, hopened⟩ ↦ ?_⟩
    have hreaches : ReachesWait d s := reachesWait_of_opened (Prod.ext hopened rfl)
    exact openDatabase_breakdown_iff.2 ⟨hn, hreaches⟩

def impatient : Configuration where
  service := { operations := some "guardian.operations.basic" }
  store := { kind := .sqlite, file := some (.text "k.db"), busyTimeoutMs := 2147483648 }

theorem breakdown_exactly_of_wait_impatient : impatient.check = .ok () ∧
    impatient.store.database? = some { path := "k.db", busyTimeoutMs := 2147483648 } ∧
    (openDatabase {} { path := "k.db", busyTimeoutMs := 2147483648 }).1 = .breakdown := by
  have hcheck : impatient.check = .ok () := by rfl
  have hs : impatient.store.database? = some { path := "k.db", busyTimeoutMs := 2147483648 } := rfl
  have hreaches : ReachesWait {} { path := "k.db", busyTimeoutMs := 2147483648 } :=
    ⟨_, _, _, 0, rfl, rfl, rfl, rfl⟩
  exact ⟨hcheck, hs, (breakdown_exactly_of_wait hcheck hs {}).2.1.2 ⟨by decide, hreaches⟩⟩

end Configuration

end Gatekeeper
