import Gatekeeper.Proofs.Database.Mirror
import Gatekeeper.Proofs.Service.Actions
import Gatekeeper.Proofs.Text.Order

namespace Gatekeeper

open Disk

namespace Handles

/-- Whether a move keeps to the connections that are open, to the path of the database, where it has room, and to the
journal mode of those that have it open. -/
def Allows (path : String) (t : Handles) : Move → Prop
  | .act c a => c ∈ t.connections ∧ a.IsAdmissible
  | .enter _ s => s.path = path ∧ s.busyTimeoutMs ≤ DatabaseSettings.maxBusyTimeoutMs ∧
      (t.mode = s.journalMode ∨ t.connections = []) ∧ t.disk.HasRoom path s.journalMode
  | .leave c => c ∈ t.connections

instance (path : String) (t : Handles) : DecidablePred (t.Allows path)
  | .act _ _ => inferInstanceAs (Decidable (_ ∧ _))
  | .enter _ _ => inferInstanceAs (Decidable (_ ∧ _ ∧ _ ∧ _))
  | .leave _ => inferInstanceAs (Decidable (_ ∈ _))

def Fair (path : String) (t : Handles) : List Move → Prop
  | [] => True
  | m :: ms => t.Allows path m ∧ Fair path (t.step m).2 ms

instance decidableFair (path : String) : ∀ (t : Handles) (ms : List Move), Decidable (t.Fair path ms)
  | _, [] => .isTrue trivial
  | t, m :: ms =>
    have := decidableFair path (t.step m).2 ms
    inferInstanceAs (Decidable (_ ∧ _))

end Handles

namespace Vault

variable {x : Site} {d e : Disk} {ks : List Nat} {m : JournalMode} {M : KeyStore} {c : Connection} {a : Action}

theorem checkIdentity_of_admissible {i : Identity}
    (h : ¬ (Text.trim i.name).isEmpty ∧ i.name.utf8ByteSize ≤ Database.maxIdentityBytes) :
    Database.checkIdentity i = .ok () := by
  rw [Database.checkIdentity, if_neg h.1, if_neg (Nat.not_lt.2 h.2)]

theorem insert_mirror {i : Identity} (hi : Database.checkIdentity i = .ok ()) (M : KeyStore) (e : Disk)
    (k : Key) :
    (((Database.mirror M).insert i k).map fun _ ↦ ()).mapError DatabaseError.toStoreError =
        (insert ⟨.memory M, e⟩ i k).1 ∧
      ∃ M', (insert ⟨.memory M, e⟩ i k).2 = ⟨.memory M', e⟩ ∧
        ((Database.mirror M).insert i k).toOption.getD (.mirror M) = .mirror M' := by
  cases hcontains : M.keys.contains i.name with
  | true =>
    have hmemory : insert ⟨.memory M, e⟩ i k = (.error (.alreadyExists i.name), ⟨.memory M, e⟩) := by
      simp only [insert, KeyStore.insert, hcontains, if_true]
    rw [Database.insert_mirror_of_contains hi hcontains, hmemory]
    exact ⟨rfl, M, rfl, rfl⟩
  | false =>
    have hmemory : insert ⟨.memory M, e⟩ i k = (.ok (), ⟨.memory ⟨M.keys.insert i.name k⟩, e⟩) := by
      simp only [insert, KeyStore.insert, hcontains, Bool.false_eq_true, if_false]
    rw [Database.insert_mirror hi hcontains, hmemory]
    exact ⟨rfl, _, rfl, rfl⟩

theorem perform_mirror (ha : a.IsAdmissible) (M : KeyStore) (e : Disk) :
    ((Database.mirror M).perform a).1 = (perform ⟨.memory M, e⟩ a).1 ∧
      ∃ M', (perform ⟨.memory M, e⟩ a).2 = ⟨.memory M', e⟩ ∧ ((Database.mirror M).perform a).2 = .mirror M' := by
  cases a with
  | insert i k =>
    obtain ⟨hreply, M', hmemory, htables⟩ := insert_mirror (checkIdentity_of_admissible ha) M e k
    exact ⟨congrArg Reply.inserted hreply, M', hmemory, htables⟩
  | mint i fresh =>
    obtain ⟨hreply, M', hmemory, htables⟩ := insert_mirror (checkIdentity_of_admissible ha) M e fresh
    simp only [perform, mint_eq_insert, ← hreply, Database.perform]
    refine ⟨?_, M', hmemory, htables⟩
    cases (Database.mirror M).insert i fresh <;> rfl
  | revoke i =>
    simp only [perform, Database.perform, Database.revoke_mirror]
    exact ⟨rfl, _, rfl, rfl⟩
  | lookup i =>
    simp only [Database.perform, Database.lookup_mirror]
    exact ⟨rfl, M, rfl, rfl⟩
  | identities =>
    simp only [Database.perform, Database.identities_mirror]
    exact ⟨rfl, M, rfl, rfl⟩

theorem perform_holds (h : x.Holds ks m (.mirror M) d) (hx : x.Fits m) (hc : c.session ∈ ks)
    (ha : a.IsAdmissible) (e : Disk) :
    (perform ⟨.database c, d⟩ a).1 = (perform ⟨.memory M, e⟩ a).1 ∧
      ∃ M', (perform ⟨.memory M, e⟩ a).2 = ⟨.memory M', e⟩ ∧
        x.Holds ks m (.mirror M') (perform ⟨.database c, d⟩ a).2.disk := by
  obtain ⟨hreply, hd'⟩ := perform_tables h hx hc a
  obtain ⟨hsame, M', hmemory, htables⟩ := perform_mirror ha M e
  exact ⟨hreply.trans hsame, M', hmemory, htables ▸ hd'⟩

theorem exists_insert_memory (M : KeyStore) (e : Disk) (i : Identity) (k : Key) :
    ∃ M', (insert ⟨.memory M, e⟩ i k).2 = ⟨.memory M', e⟩ := by
  simp only [insert]
  split
  · exact ⟨_, rfl⟩
  · exact ⟨_, rfl⟩

theorem exists_perform_memory (M : KeyStore) (e : Disk) (a : Action) :
    ∃ M', (perform ⟨.memory M, e⟩ a).2 = ⟨.memory M', e⟩ := by
  cases a with
  | insert i k => exact exists_insert_memory M e i k
  | mint i fresh =>
    simp only [perform, mint_eq_insert]
    exact exists_insert_memory M e i fresh
  | revoke i => exact ⟨_, rfl⟩
  | lookup i => exact ⟨_, rfl⟩
  | identities => exact ⟨_, rfl⟩

theorem isOrdered_perform (M : KeyStore) (e : Disk) (a : Action) :
    (perform ⟨.memory M, e⟩ a).1.IsOrdered := by
  cases a with
  | identities =>
    refine List.pairwise_map.2 (List.pairwise_map.2 ?_)
    exact M.keys.sorted.imp Bytes.ofString_lt_ofString
  | _ => trivial

theorem isOrdered_replies {M : KeyStore} {e : Disk} {as : List Action} {r : Reply}
    (hr : r ∈ replies ⟨.memory M, e⟩ as) : r.IsOrdered := by
  induction as generalizing M with
  | nil => cases hr
  | cons a as ih =>
    rcases List.mem_cons.1 hr with rfl | hr
    · exact isOrdered_perform M e a
    · obtain ⟨M', hmemory⟩ := exists_perform_memory M e a
      rw [hmemory] at hr
      exact ih hr

end Vault

namespace Handles

variable {x : Site} {t : Handles} {M : KeyStore} {path : String}

/-- Whether a database holds the keys of a store in memory, and the connections are all that have it
open. -/
structure Tracks (t : Handles) (x : Site) (M : KeyStore) : Prop where
  fits : x.Fits t.mode
  holds : x.Holds (t.connections.map Connection.session) t.mode (.mirror M) t.disk

theorem Tracks.enter (h : t.Tracks x M) (hleads : x.ways.Leads path x.place) (hfile : Site.NamesFile path)
    {program : Nat} {s : DatabaseSettings} (hallows : t.Allows path (.enter program s)) :
    ∃ c, (t.step (.enter program s)).1 = .entered (.opened c) ∧ (t.step (.enter program s)).2.Tracks x M := by
  obtain ⟨rfl, hwait, hmode, hroom⟩ := hallows
  have hx' := h.holds.fits h.fits hleads hroom
  obtain ⟨d', hopen, hd'⟩ := Connection.openDatabase_holds (s := s) (h.holds.atWork program) h.fits hx' hleads hfile
    (Database.prepare_mirror M) (hmode.imp_right fun hnil ↦ by simp [hnil]) hwait
  refine ⟨⟨t.disk.opened⟩, ?_, ?_⟩
  · simp only [step, hopen]
  · simp only [step, hopen]
    exact ⟨hx', hd'⟩

theorem Tracks.leave (h : t.Tracks x M) {c : Connection} (hallows : t.Allows path (.leave c)) :
    (t.step (.leave c)).2.Tracks x M := by
  have hd' := h.holds.leave (List.mem_map_of_mem hallows)
  refine ⟨h.fits, ?_⟩
  simp only [step, sessions_without]
  exact hd'

theorem Tracks.outcomes (h : t.Tracks x M) (hleads : x.ways.Leads path x.place)
    (hfile : Site.NamesFile path) {moves : List Move} (hfair : t.Fair path moves) (e : Disk) :
    (t.outcomes moves).filterMap Outcome.reply? =
        (⟨.memory M, e⟩ : Vault).replies (moves.filterMap Move.action?) ∧
      ∀ o, .entered o ∈ t.outcomes moves → ∃ c, o = .opened c := by
  -- Opening and closing leave the keys that the database holds, and are not seen by the store in memory.
  induction moves generalizing t M with
  | nil => exact ⟨rfl, nofun⟩
  | cons move moves ih =>
    obtain ⟨hallows, hfair⟩ := hfair
    cases move with
    | act c a =>
      obtain ⟨hreply, M', hmemory, hd'⟩ :=
        Vault.perform_holds h.holds h.fits (List.mem_map_of_mem hallows.1) hallows.2 e
      obtain ⟨hreplies, hopened⟩ := ih (t := (t.step (.act c a)).2) ⟨h.fits, hd'⟩ hfair
      refine ⟨?_, fun o ho ↦ ?_⟩
      · change _ :: (Handles.outcomes _ moves).filterMap _ = (Vault.perform _ a).1 :: Vault.replies _ _
        rw [hreplies, hmemory, ← hreply]
      · rcases List.mem_cons.1 ho with ho | ho
        · cases ho
        · exact hopened o ho
    | enter program s =>
      obtain ⟨c, houtcome, hd'⟩ := Tracks.enter h hleads hfile hallows
      obtain ⟨hreplies, hopened⟩ := ih hd' hfair
      rw [Handles.outcomes, houtcome]
      refine ⟨hreplies, fun o ho ↦ ?_⟩
      rcases List.mem_cons.1 ho with ho | ho
      · cases ho
        exact ⟨c, rfl⟩
      · exact hopened o ho
    | leave c =>
      obtain ⟨hreplies, hopened⟩ := ih (h.leave hallows) hfair
      refine ⟨hreplies, fun o ho ↦ ?_⟩
      rcases List.mem_cons.1 ho with ho | ho
      · cases ho
      · exact hopened o ho

/-- A database that was opened where there was no file, or an empty one, answers every action as a store in memory
that was empty then, over whichever of its connections, and however often it was closed and opened in between. -/
theorem stores_indistinguishable {d d' : Disk} {s : DatabaseSettings} {c : Connection}
    (hp : Address.IsPlain s.path) (hd : d.Clear s.path)
    (hopen : Connection.openDatabase d s = (.opened c, d')) (moves : List Move)
    (hfair : Fair s.path ⟨d', [c], s.journalMode⟩ moves) :
    let outcomes := (⟨d', [c], s.journalMode⟩ : Handles).outcomes moves
    let replies := (⟨.memory .empty, {}⟩ : Vault).replies (moves.filterMap Move.action?)
    outcomes.filterMap Outcome.reply? = replies ∧
      (∀ o, .entered o ∈ outcomes → ∃ c, o = .opened c) ∧ ∀ r ∈ replies, r.IsOrdered := by
  obtain ⟨x, hx, hleads, hfile, hholds⟩ := Connection.openDatabase_clear hp hd hopen
  have htracks : Tracks ⟨d', [c], s.journalMode⟩ x .empty := ⟨hx, hholds⟩
  obtain ⟨hreplies, hopened⟩ := htracks.outcomes hleads hfile hfair {}
  exact ⟨hreplies, hopened, fun r hr ↦ Vault.isOrdered_replies hr⟩

/-- A key is minted over one connection and put in again over another, before both are closed; then it is
revoked over a third one in the other journal mode. -/
theorem stores_indistinguishable_reopened :
    ∃ (k : Key) (d : Disk) (moves : List Move), Address.IsPlain "k.db" ∧ ({} : Disk).Clear "k.db" ∧
      Connection.openDatabase {} { path := "k.db" } = (.opened ⟨0⟩, d) ∧
      Fair "k.db" ⟨d, [⟨0⟩], .wal⟩ moves ∧
      moves.filterMap Move.action? = [.mint ⟨"a"⟩ k, .insert ⟨"a"⟩ k, .revoke ⟨"a"⟩, .identities] ∧
      ((⟨d, [⟨0⟩], .wal⟩ : Handles).outcomes moves).filterMap Outcome.reply? =
        [.minted (.ok k), .inserted (.error (.alreadyExists "a")), .revoked (.ok true), .listed (.ok [])] := by
  let k : Key := ⟨List.replicate 32 7, rfl⟩
  let d := (Connection.openDatabase {} { path := "k.db" }).2
  let moves : List Move := [.act ⟨0⟩ (.mint ⟨"a"⟩ k), .enter 1 { path := "k.db" }, .act ⟨1⟩ (.insert ⟨"a"⟩ k),
    .leave ⟨0⟩, .leave ⟨1⟩, .enter 0 { path := "k.db", journalMode := .delete }, .act ⟨2⟩ (.revoke ⟨"a"⟩),
    .act ⟨2⟩ .identities]
  have hopen : Connection.openDatabase {} { path := "k.db" } = (.opened ⟨0⟩, d) := rfl
  have hfair : Fair "k.db" ⟨d, [⟨0⟩], .wal⟩ moves := by decide +kernel
  have hp : Address.IsPlain "k.db" := ⟨by decide, by decide⟩
  obtain ⟨hreplies, -, -⟩ := stores_indistinguishable hp clear_empty hopen moves hfair
  exact ⟨k, d, moves, hp, clear_empty, hopen, hfair, rfl, hreplies.trans rfl⟩

end Handles

end Gatekeeper
