import Gatekeeper.Proofs.Capability.Keys
import Gatekeeper.Proofs.Command.Drafts
import Gatekeeper.Proofs.Database.Kept
import Gatekeeper.Proofs.Database.Mirror

namespace Gatekeeper

open Disk

variable {σ : Type}

/-- What a run of the program does to the keys of a store. -/
inductive Chore where
  | mint (name : String)
  | revoke (name : String)
  | list

namespace Chore

def command (config : Option String) : Chore → Command
  | mint name => .mint name config
  | revoke name => .revoke name config
  | list => .list config

def Refused (M : KeyStore) : Chore → Prop
  | mint name => (Text.trim name).isEmpty ∨ Database.maxIdentityBytes < (Text.trim name).utf8ByteSize ∨
      M.keys.contains (Text.trim name)
  | revoke name => (Text.trim name).isEmpty
  | list => False

def document (M : KeyStore) (fresh : Key) : Chore → Json
  | mint name => Command.mintedDocument ⟨Text.trim name⟩ fresh true
  | revoke name => .object [("identity", .string (Text.trim name)),
      ("revoked", .bool (M.keys.contains (Text.trim name)))]
  | list => .object [("identities", .array (M.keys.keys.map .string))]

def keysAfter (M : KeyStore) (fresh : Key) : Chore → KeyStore
  | mint name => ⟨M.keys.insert (Text.trim name) fresh⟩
  | revoke name => ⟨M.keys.erase (Text.trim name)⟩
  | list => M

/-- The ways in which a chore can end whose output is printed. -/
inductive Ends (s : DatabaseSettings) (M : KeyStore) (fresh : Key) (chore : Chore) (scene : Scene) :
    Command.Result Unit → Prop
  | refused {e : CommandError} {d : Disk} : chore.Refused M → d.Keeps s (.mirror M) →
    Ends s M fresh chore scene (.error e, { scene with disk := d })
  | done {d : Disk} : ¬ chore.Refused M → d.Keeps s (.mirror (chore.keysAfter M fresh)) →
    Ends s M fresh chore scene (.ok (), { scene with
      disk := d, output := scene.output ++ ((chore.document M fresh).pretty ++ "\n") })

end Chore

theorem Scene.disk_report (scene : Scene) (w : Surroundings) (lines : List String) :
    (scene.report w lines).disk = scene.disk := by
  unfold report
  split <;> rfl

namespace Command

variable {c : Configuration} {s : DatabaseSettings} {T T' : Database} {M : KeyStore} {scene : Scene}
  {w : Surroundings} {config : Option String}

theorem printJson_of_working (h : w.outputFull = false) (v : Json) (scene : Scene) :
    printJson w v scene = (.ok (), { scene with output := scene.output ++ (v.pretty ++ "\n") }) := by
  rw [printJson, Scene.printLine, Scene.print, h]
  rfl

theorem withDatabase_keeps {α : Type} {f : Connection → Disk → Except CommandError α × Disk}
    {a : Except CommandError α} (hc : c.store.database? = some s) (h : scene.disk.Keeps s T)
    (hf : ∀ k d, k.Reaches s T d → ∃ d', f k d = (a, d') ∧ k.Reaches s T' d') (hT' : T'.prepare = .ok none) :
    ∃ d', withDatabase c scene f = (a, { scene with disk := d' }) ∧ d'.Keeps s T' := by
  obtain ⟨k, d, hopen, hk⟩ := h scene.disk.program
  have hopen : Connection.openDatabase scene.disk s = (.opened k, d) := hopen
  obtain ⟨d', hdone, hk'⟩ := hf k d hk
  refine ⟨k.close d', ?_, hk'.close hT' h.wait⟩
  simp only [withDatabase, openStore, hc, hopen, hdone]

theorem withDatabase_mint (hc : c.store.database? = some s) (h : scene.disk.Keeps s T) (i : Identity) (k : Key)
    (hT : ((T.insert i k).toOption.getD T).prepare = .ok none) :
    ∃ d', withDatabase c scene (fun connection d ↦
        let (r, d) := connection.mint d i k
        (r.mapError .mint, d)) = (((T.insert i k).map fun _ ↦ k).mapError .mint, { scene with disk := d' }) ∧
      d'.Keeps s ((T.insert i k).toOption.getD T) := by
  refine withDatabase_keeps hc h (fun connection d hk ↦ ?_) hT
  obtain ⟨d', hmint, hk'⟩ := hk.mint i k
  exact ⟨d', by rw [hmint], hk'⟩

theorem withDatabase_revoke (hc : c.store.database? = some s) (h : scene.disk.Keeps s T) (i : Identity)
    (hT : (((T.revoke i).toOption.map Prod.snd).getD T).prepare = .ok none) :
    ∃ d', withDatabase c scene (fun connection d ↦
        let (r, d) := connection.revoke d i
        (r.mapError .revoke, d)) = (((T.revoke i).map Prod.fst).mapError .revoke, { scene with disk := d' }) ∧
      d'.Keeps s (((T.revoke i).toOption.map Prod.snd).getD T) := by
  refine withDatabase_keeps hc h (fun connection d hk ↦ ?_) hT
  obtain ⟨d', hrevoke, hk'⟩ := hk.revoke i
  exact ⟨d', by rw [hrevoke], hk'⟩

theorem withDatabase_list (hc : c.store.database? = some s) (h : scene.disk.Keeps s T)
    (hT : T.prepare = .ok none) :
    ∃ d', withDatabase c scene (fun connection d ↦
        let (r, d) := connection.identities d
        (r.mapError .list, d)) = (T.identities.mapError .list, { scene with disk := d' }) ∧ d'.Keeps s T := by
  refine withDatabase_keeps hc h (fun connection d hk ↦ ?_) hT
  obtain ⟨d', hlist, hk'⟩ := hk.identities
  exact ⟨d', by rw [hlist], hk'⟩

theorem insert_of_refused {name : String} (hblank : (Text.trim name).isEmpty = false)
    (h : (Chore.mint name).Refused M) (k : Key) :
    ∃ e, (Database.mirror M).insert ⟨Text.trim name⟩ k = .error e := by
  cases hcheck : Database.checkIdentity ⟨Text.trim name⟩ with
  | error e => exact ⟨e, by rw [Database.insert, hcheck]; rfl⟩
  | ok _ =>
    rcases h with hempty | hlong | hheld
    · rw [hblank] at hempty
      cases hempty
    · rw [Database.checkIdentity, Text.trim_trim, hblank, if_neg (by decide), if_pos hlong] at hcheck
      cases hcheck
    · exact ⟨_, Database.insert_mirror_of_contains hcheck hheld k⟩

theorem insert_of_not_refused {name : String} (h : ¬ (Chore.mint name).Refused M) (k : Key) :
    (Database.mirror M).insert ⟨Text.trim name⟩ k = .ok (.mirror ⟨M.keys.insert (Text.trim name) k⟩) := by
  simp only [Chore.Refused, not_or, Bool.not_eq_true] at h
  obtain ⟨hblank, hshort, hnew⟩ := h
  have hcheck : Database.checkIdentity ⟨Text.trim name⟩ = .ok () := by
    rw [Database.checkIdentity, Text.trim_trim, hblank, if_neg (by decide), if_neg hshort]
  exact Database.insert_mirror hcheck hnew k

theorem runMint_ends (hload : loadConfiguration w config scene = .ok c) (hprint : w.outputFull = false)
    (hc : c.store.database? = some s) (hd : scene.disk.Keeps s (.mirror M)) (name : String) :
    (Chore.mint name).Ends s M w.freshKey scene (runMint w name config scene) := by
  have hstored : c.store.database?.isNone = false := by rw [hc]; rfl
  unfold runMint
  cases hblank : (Text.trim name).isEmpty with
  | true =>
    have htyped : Identity.typed name = .error .blankIdentity := by simp [Identity.typed, hblank]
    simp only [hload, htyped]
    exact .refused (.inl hblank) hd
  | false =>
    have htyped : Identity.typed name = .ok ⟨Text.trim name⟩ := Identity.typed_eq_ok_iff.2 ⟨hblank, rfl⟩
    have hmint := withDatabase_mint hc hd ⟨Text.trim name⟩ w.freshKey
    by_cases h : (Chore.mint name).Refused M
    · obtain ⟨e, hinsert⟩ := insert_of_refused hblank h w.freshKey
      rw [hinsert] at hmint
      obtain ⟨d', hdone, hd'⟩ := hmint (Database.prepare_mirror M)
      simp only [hload, htyped, hstored, Bool.false_eq_true, if_false, hdone]
      exact .refused h hd'
    · rw [insert_of_not_refused h] at hmint
      obtain ⟨d', hdone, hd'⟩ := hmint (Database.prepare_mirror _)
      simp only [hload, htyped, hstored, Bool.false_eq_true, if_false, hdone]
      simp only [Except.map, mapError_ok, printJson_of_working hprint]
      exact .done h hd'

theorem runRevoke_ends (hload : loadConfiguration w config scene = .ok c) (hprint : w.outputFull = false)
    (hc : c.store.database? = some s) (hd : scene.disk.Keeps s (.mirror M)) (name : String) :
    (Chore.revoke name).Ends s M w.freshKey scene (runRevoke w name config scene) := by
  unfold runRevoke
  cases hblank : (Text.trim name).isEmpty with
  | true =>
    have htyped : Identity.typed name = .error .blankIdentity := by simp [Identity.typed, hblank]
    simp only [hload, htyped]
    exact .refused hblank hd
  | false =>
    have htyped : Identity.typed name = .ok ⟨Text.trim name⟩ := Identity.typed_eq_ok_iff.2 ⟨hblank, rfl⟩
    have hrevoke := withDatabase_revoke hc hd ⟨Text.trim name⟩
    rw [Database.revoke_mirror] at hrevoke
    obtain ⟨d', hdone, hd'⟩ := hrevoke (Database.prepare_mirror _)
    simp only [hload, htyped, hdone]
    simp only [Except.map, mapError_ok, printJson_of_working hprint]
    exact .done (by simp [Chore.Refused, hblank]) hd'

theorem runList_ends (hload : loadConfiguration w config scene = .ok c) (hprint : w.outputFull = false)
    (hc : c.store.database? = some s) (hd : scene.disk.Keeps s (.mirror M)) :
    Chore.list.Ends s M w.freshKey scene (runList w config scene) := by
  have hlist := withDatabase_list hc hd (Database.prepare_mirror M)
  rw [Database.identities_mirror] at hlist
  obtain ⟨d', hdone, hd'⟩ := hlist
  have hnames : M.identities.map Identity.toJson = M.keys.keys.map .string := by
    rw [KeyStore.identities, List.map_map]
    rfl
  unfold runList
  simp only [hload, hdone]
  simp only [mapError_ok, printJson_of_working hprint, hnames]
  exact .done not_false hd'

end Command

end Gatekeeper
