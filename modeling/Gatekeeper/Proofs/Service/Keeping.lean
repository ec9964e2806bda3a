import Gatekeeper.Proofs.Database.Outside
import Gatekeeper.Proofs.Service.Actions

namespace Gatekeeper

open Disk

namespace Handles

variable {x : Site} {t : Handles} {T T' : Database} {path : String} {m : Move} {moves : List Move}

/-- Whether a move keeps to the connections that are open and to the path of the database, has room there, and waits
no longer than the engine can count. -/
def Permits (path : String) (t : Handles) : Move → Prop
  | .act c _ => c ∈ t.connections
  | .enter _ s => s.path = path ∧ s.busyTimeoutMs ≤ DatabaseSettings.maxBusyTimeoutMs ∧
      t.disk.HasRoom path s.journalMode
  | .leave c => c ∈ t.connections

instance (path : String) (t : Handles) : DecidablePred (t.Permits path)
  | .act _ _ => inferInstanceAs (Decidable (_ ∈ _))
  | .enter _ _ => inferInstanceAs (Decidable (_ ∧ _ ∧ _))
  | .leave _ => inferInstanceAs (Decidable (_ ∈ _))

def Proper (path : String) (t : Handles) : List Move → Prop
  | [] => True
  | m :: ms => t.Permits path m ∧ Proper path (t.step m).2 ms

instance decidableProper (path : String) : ∀ (t : Handles) (ms : List Move), Decidable (t.Proper path ms)
  | _, [] => .isTrue trivial
  | t, m :: ms =>
    have := decidableProper path (t.step m).2 ms
    inferInstanceAs (Decidable (_ ∧ _))

/-- Whether the database with a path holds tables, and the connections are all that have it open. -/
structure Stands (t : Handles) (x : Site) (path : String) (T : Database) : Prop where
  leads : x.ways.Leads path x.place
  file : Site.NamesFile path
  holds : ∃ mode, x.Fits mode ∧ x.Holds (t.connections.map Connection.session) mode T t.disk

/-- What a move can do to tables, and what it is answered. -/
inductive Effect (T : Database) : Move → Outcome → Database → Prop
  | act (c : Connection) (a : Vault.Action) : Effect T (.act c a) (.replied (T.perform a).1) (T.perform a).2
  | opened (program : Nat) (s : DatabaseSettings) (c : Connection) {tables? : Option Database} :
    T.prepare = .ok tables? → Effect T (.enter program s) (.entered (.opened c)) (tables?.getD T)
  | locked (program : Nat) (s : DatabaseSettings) :
    Effect T (.enter program s) (.entered (.refused (.engine .locked))) T
  | refused (program : Nat) (s : DatabaseSettings) {e : DatabaseError} :
    T.prepare = .error e → Effect T (.enter program s) (.entered (.refused e)) T
  | left (c : Connection) : Effect T (.leave c) .left T

theorem Stands.step (h : t.Stands x path T) (hm : t.Permits path m) :
    ∃ T', Effect T m (t.step m).1 T' ∧ (t.step m).2.Stands x path T' := by
  obtain ⟨hleads, hfile, mode, hx, hholds⟩ := h
  cases m with
  | act c a =>
    obtain ⟨hreply, hd'⟩ := Vault.perform_tables hholds hx (List.mem_map_of_mem hm) a
    refine ⟨(T.perform a).2, ?_, hleads, hfile, mode, hx, hd'⟩
    simp only [Handles.step, hreply]
    exact .act c a
  | enter program s =>
    obtain ⟨rfl, hwait, hroom⟩ := hm
    have hx' := hholds.fits hx hleads hroom
    -- Who opens it may be shut out by those that hold on to the log, or turned away for the version found.
    rcases Connection.openDatabase_cases (hholds.atWork program) hx hx' hleads hfile hwait with
      ⟨tables?, d', hprepare, hopen, hd'⟩ | ⟨e, mode', d', he, hopen, hx'', hd'⟩
    · refine ⟨tables?.getD T, ?_, hleads, hfile, s.journalMode, hx', ?_⟩
      · simp only [Handles.step, hopen]
        exact .opened program s _ hprepare
      · simp only [Handles.step, hopen]
        exact hd'
    · refine ⟨T, ?_, hleads, hfile, mode', hx'', ?_⟩
      · simp only [Handles.step, hopen]
        rcases he with ⟨rfl, -⟩ | hprepare
        · exact .locked program s
        · exact .refused program s hprepare
      · simp only [Handles.step, hopen]
        exact hd'
  | leave c =>
    refine ⟨T, .left c, hleads, hfile, mode, hx, ?_⟩
    simp only [Handles.step, sessions_without]
    exact hholds.leave (List.mem_map_of_mem hm)

theorem Stands.after {P : Database → Prop} (hP : ∀ {T m o T'}, P T → Effect T m o T' → P T')
    (h : t.Stands x path T) (hT : P T) (hproper : t.Proper path moves) :
    ∃ T', (t.after moves).Stands x path T' ∧ P T' := by
  induction moves generalizing t T with
  | nil => exact ⟨T, h, hT⟩
  | cons m moves ih =>
    obtain ⟨hm, hproper⟩ := hproper
    obtain ⟨T', heffect, hstands⟩ := h.step hm
    exact ih hstands (hP hT heffect) hproper

structure Idle (t : Handles) (path : String) : Prop where
  closed : t.connections = []
  clear : t.disk.Clear path

/-- The first opening that succeeds founds the database; others leave no trace in the file. -/
theorem Idle.step (hp : Address.IsPlain path) (h : t.Idle path) (hm : t.Permits path m) :
    (∃ c x, (t.step m).1 = .entered (.opened c) ∧ (t.step m).2.Stands x path .founded) ∨
      ∃ e, (t.step m).1 = .entered (.refused e) ∧ (∀ found, e ≠ .version found) ∧ (t.step m).2.Idle path := by
  cases m with
  | act c a =>
    have hc : c ∈ t.connections := hm
    rw [h.closed] at hc
    cases hc
  | leave c =>
    have hc : c ∈ t.connections := hm
    rw [h.closed] at hc
    cases hc
  | enter program s =>
    obtain ⟨rfl, hwait, hroom⟩ := hm
    have hopen := Connection.openDatabase_of_clear hp (h.clear.atWork program) (hroom.atWork program)
    cases hdone : Connection.openDatabase { t.disk with program } s with
    | mk o d' =>
      rw [hdone] at hopen
      cases o with
      | opened c =>
        obtain ⟨x, hx, hleads, hfile, hholds⟩ := hopen
        refine .inl ⟨c, x, ?_, hleads, hfile, s.journalMode, hx, ?_⟩
        · simp only [Handles.step, hdone]
        · simp only [Handles.step, hdone, h.closed]
          exact hholds
      | refused e =>
        obtain ⟨he, hclear⟩ := hopen
        refine .inr ⟨e, ?_, he, ?_, ?_⟩
        · simp only [Handles.step, hdone]
        · simp only [Handles.step, hdone, opened?, h.closed]
          rfl
        · simp only [Handles.step, hdone]
          exact hclear
      | breakdown => exact absurd hopen (Nat.not_lt.2 hwait)

theorem Idle.after {P : Database → Prop} (hp : Address.IsPlain path) (hfounded : P .founded)
    (hP : ∀ {T m o T'}, P T → Effect T m o T' → P T') (h : t.Idle path) (hproper : t.Proper path moves) :
    (∃ c, .entered (.opened c) ∈ t.outcomes moves) ∧ (∃ x T, (t.after moves).Stands x path T ∧ P T) ∨
      (¬∃ c, .entered (.opened c) ∈ t.outcomes moves) ∧ (t.after moves).Idle path := by
  -- The first opening that succeeds divides the run: before it nothing is kept, from then on `P` is.
  induction moves generalizing t with
  | nil => exact .inr ⟨fun ⟨_, hc⟩ ↦ List.not_mem_nil hc, h⟩
  | cons m moves ih =>
    obtain ⟨hm, hproper⟩ := hproper
    rcases h.step hp hm with ⟨c, x, houtcome, hstands⟩ | ⟨e, houtcome, -, hidle⟩
    · obtain ⟨T, hstands, hT⟩ := hstands.after hP hfounded hproper
      refine .inl ⟨⟨c, ?_⟩, x, T, hstands, hT⟩
      rw [outcomes, houtcome]
      exact List.mem_cons_self
    · have hmem (c : Connection) :
          .entered (.opened c) ∈ t.outcomes (m :: moves) ↔ .entered (.opened c) ∈ (t.step m).2.outcomes moves := by
        rw [outcomes, houtcome, List.mem_cons]
        exact or_iff_right nofun
      simp only [hmem]
      exact ih hidle hproper

end Handles

end Gatekeeper
