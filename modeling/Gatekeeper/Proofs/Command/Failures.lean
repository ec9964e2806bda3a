import Gatekeeper.Proofs.Command.Lifecycle
import Gatekeeper.Proofs.Database.Operations
import Gatekeeper.Proofs.Database.Refusals

namespace Gatekeeper

open Disk Engine

variable {σ : Type} {d d' : Disk} {p : Place} {w : Surroundings} {scene scene' : Scene} {config : Option String}
  {c : Configuration}

namespace Connection

variable {k : Connection} {i : Identity} {fresh fresh' : Key} {b : Bool} {e : DatabaseError}

theorem spares_of_mint (h : Attends k.session p d) (hmint : k.mint d i fresh = (.error e, d')) :
    Spares k.session p d d' := by
  unfold mint insert at hmint
  cases hcheck : Database.checkIdentity i with
  | error e =>
    simp only [hcheck, Prod.mk.injEq] at hmint
    exact hmint.2 ▸ h.spares
  | ok _ =>
    simp only [hcheck] at hmint
    split at hmint
    next hrun =>
      cases hmint
      exact spares_of_run h hrun
    · cases hmint

theorem rowsAt_of_mint (h : Attends k.session p d) (hmint : k.mint d i fresh = (.ok fresh', d')) :
    Attends k.session p d' ∧ (d'.rowsAt p = d.rowsAt p ∨
      d'.rowsAt p = (d.rowsAt p).map fun rows ↦ rows.insert i.name (.blob fresh.bytes)) := by
  unfold mint insert at hmint
  cases hcheck : Database.checkIdentity i with
  | error e => simp [hcheck] at hmint
  | ok _ =>
    simp only [hcheck] at hmint
    split at hmint
    · cases hmint
    next hrun =>
      cases hmint
      obtain ⟨T, tables?, hT, hattends, hleaves⟩ := leaves_of_run h hrun
      refine ⟨hattends, ?_⟩
      cases hleaves with
      | same hsame => exact .inl (rowsAt_of_storedAt hsame)
      | @others j T' hj htables hsome hstored =>
        subst hsome htables
        cases hinsert : j.tables.insert i fresh with
        | error e => simp [hinsert, Except.map] at hT
        | ok T'' =>
          obtain ⟨-, table, hkeys, -, rfl⟩ := Database.insert_eq_ok_iff.1 hinsert
          simp only [hinsert, Except.map, Except.ok.injEq, Prod.mk.injEq, Option.some.injEq, true_and] at hT
          right
          rw [rowsAt, rowsAt, hstored, hj, ← hT]
          simp only [Except.map, hkeys, Option.getD_some]

theorem rowsAt_of_revoke (h : Attends k.session p d) (hrevoke : k.revoke d i = (.ok b, d')) :
    Attends k.session p d' ∧ (d'.rowsAt p = d.rowsAt p ∨
      d'.rowsAt p = (d.rowsAt p).map fun rows ↦ rows.erase i.name) := by
  obtain ⟨T, tables?, hT, hattends, hleaves⟩ := leaves_of_run h hrevoke
  refine ⟨hattends, ?_⟩
  cases hleaves with
  | same hsame => exact .inl (rowsAt_of_storedAt hsame)
  | @others j T' hj htables hsome hstored =>
    subst hsome htables
    cases hdone : j.tables.revoke i with
    | error e => simp [hdone, Except.map] at hT
    | ok result =>
      obtain ⟨revoked, T''⟩ := result
      obtain ⟨table, hkeys, -, rfl⟩ := Database.revoke_eq_ok_iff.1 hdone
      simp only [hdone, Except.map, Except.ok.injEq, Prod.mk.injEq] at hT
      obtain ⟨rfl, hT⟩ := hT
      split at hT
      · right
        rw [rowsAt, rowsAt, hstored, hj, ← Option.some.inj hT]
        simp only [Except.map, hkeys, Option.getD_some]
      · cases hT

end Connection

namespace Chore

def rowsAfter (fresh : Key) (rows : KeyTable) : Chore → KeyTable
  | mint name => rows.insert (Text.trim name) (.blob fresh.bytes)
  | revoke name => rows.erase (Text.trim name)
  | list => rows

def result (w : Surroundings) (config : Option String) (scene : Scene) : Chore → Command.Result Unit
  | mint name => Command.runMint w name config scene
  | revoke name => Command.runRevoke w name config scene
  | list => Command.runList w config scene

inductive Course (chore : Chore) (w : Surroundings) (config : Option String) (scene : Scene) (p : Place) : Prop
  | stuck {e : CommandError} {s : Scene} : scene.disk.Extends s.disk → s.disk.rowsAt p = scene.disk.rowsAt p →
    (∀ full, chore.result { w with outputFull := full } config scene = (.error e, s)) →
    Course chore w config scene p
  | prints {v : Json} {s : Scene} : scene.disk.Extends s.disk → (s.disk.rowsAt p = scene.disk.rowsAt p ∨
      s.disk.rowsAt p = (scene.disk.rowsAt p).map fun rows ↦ chore.rowsAfter w.freshKey rows) →
    (∀ full, chore.result { w with outputFull := full } config scene =
      Command.printJson { w with outputFull := full } v s) →
    Course chore w config scene p

end Chore

namespace Command

variable {α : Type} {f : Connection → Disk → Except CommandError α × Disk}

def Confined (c : Configuration) (scene : Scene) (p : Place) : Prop :=
  ∀ settings, c.store.database? = some settings → scene.disk.Confines settings.path p

theorem withDatabase_cases (hd : Confined c scene p) (f : Connection → Disk → Except CommandError α × Disk) :
    (∃ e d, withDatabase c scene f = (.error e, { scene with disk := d }) ∧ scene.disk.Extends d ∧
      d.rowsAt p = scene.disk.rowsAt p) ∨
      ∃ k d, Attends k.session p d ∧ scene.disk.Extends d ∧ d.rowsAt p = scene.disk.rowsAt p ∧
        withDatabase c scene f = ((f k d).1, { scene with disk := k.close (f k d).2 }) := by
  cases hc : c.store.database? with
  | none =>
    refine .inl ⟨.needsDatabase, scene.disk, ?_, .refl _, rfl⟩
    simp only [withDatabase, openStore, hc]
  | some settings =>
    have hextends := Connection.openDatabase_extends settings (hd settings hc).wellFormed
    cases hopen : Connection.openDatabase scene.disk settings with
    | mk o d =>
      rw [hopen] at hextends
      obtain ⟨hrows, hattends⟩ := Connection.openDatabase_keeps_rows (hd settings hc) hopen
      cases o with
      | opened k =>
        refine .inr ⟨k, d, hattends k rfl, hextends, hrows, ?_⟩
        simp only [withDatabase, openStore, hc, hopen]
      | refused e =>
        refine .inl ⟨.openStore e, d, ?_, hextends, hrows⟩
        simp only [withDatabase, openStore, hc, hopen]
      | breakdown =>
        refine .inl ⟨.breakdown, d, ?_, hextends, hrows⟩
        simp only [withDatabase, openStore, hc, hopen]

/-- Whether what is done over a connection does to the rows what a chore is to do, or fails and leaves them. -/
def Serves (chore : Chore) (fresh : Key) (p : Place) (f : Connection → Disk → Except CommandError α × Disk) : Prop :=
  ∀ k d, Attends k.session p d → Attends k.session p (f k d).2 ∧ d.Extends (f k d).2 ∧
    ((f k d).2.rowsAt p = d.rowsAt p ∨ (∃ a, (f k d).1 = .ok a) ∧
      (f k d).2.rowsAt p = (d.rowsAt p).map fun rows ↦ chore.rowsAfter fresh rows)

theorem course_of_serves {chore : Chore} (answer : α → Json) (hd : Confined c scene p)
    (hf : Serves chore w.freshKey p f)
    (herror : ∀ full e s, withDatabase c scene f = (.error e, s) →
      chore.result { w with outputFull := full } config scene = (.error e, s))
    (hok : ∀ full a s, withDatabase c scene f = (.ok a, s) →
      chore.result { w with outputFull := full } config scene = printJson { w with outputFull := full } (answer a) s) :
    chore.Course w config scene p := by
  rcases withDatabase_cases hd f with ⟨e, d, hwith, hextends, hrows⟩ | ⟨k, d, hattends, hextends, hrows, hwith⟩
  · exact .stuck (s := { scene with disk := d }) hextends hrows fun full ↦ herror full e _ hwith
  · obtain ⟨hattends', hextends', hdone⟩ := hf k d hattends
    have hwhole : scene.disk.Extends (k.close (f k d).2) := (hextends.trans hextends').trans (extends_leave _ _)
    have hclosed : (k.close (f k d).2).rowsAt p = (f k d).2.rowsAt p :=
      Connection.rowsAt_of_storedAt hattends'.storedAt_leave
    rw [← hclosed, hrows] at hdone
    cases hfk : (f k d).1 with
    | error e =>
      rw [hfk] at hwith hdone
      have hrows' := hdone.resolve_right fun ⟨⟨a, ha⟩, _⟩ ↦ by cases ha
      exact .stuck (s := { scene with disk := k.close (f k d).2 }) hwhole hrows' fun full ↦ herror full e _ hwith
    | ok a =>
      rw [hfk] at hwith
      have hrows' := hdone.imp_right And.right
      exact .prints (s := { scene with disk := k.close (f k d).2 }) hwhole hrows' fun full ↦ hok full a _ hwith

theorem serves_mint (name : String) (fresh : Key) (p : Place) :
    Serves (.mint name) fresh p fun connection d ↦
      let (r, d) := connection.mint d ⟨Text.trim name⟩ fresh
      (r.mapError .mint, d) := by
  intro k d hattends
  have hextends := k.mint_extends ⟨Text.trim name⟩ fresh hattends.orderly.wellFormed
  rcases hmint : k.mint d ⟨Text.trim name⟩ fresh with ⟨e | k', d'⟩ <;> simp only [hmint] at hextends ⊢
  · obtain ⟨hattends', hstored⟩ := Connection.spares_of_mint hattends hmint
    exact ⟨hattends', hextends, .inl (Connection.rowsAt_of_storedAt hstored)⟩
  · obtain ⟨hattends', hrows⟩ := Connection.rowsAt_of_mint hattends hmint
    exact ⟨hattends', hextends, hrows.imp_right fun hrows ↦ ⟨⟨k', rfl⟩, hrows⟩⟩

theorem serves_revoke (name : String) (fresh : Key) (p : Place) :
    Serves (.revoke name) fresh p fun connection d ↦
      let (r, d) := connection.revoke d ⟨Text.trim name⟩
      (r.mapError .revoke, d) := by
  intro k d hattends
  have hextends := k.revoke_extends ⟨Text.trim name⟩ hattends.orderly.wellFormed
  rcases hrevoke : k.revoke d ⟨Text.trim name⟩ with ⟨e | b, d'⟩ <;> simp only [hrevoke] at hextends ⊢
  · obtain ⟨hattends', hstored⟩ := Connection.spares_of_run hattends hrevoke
    exact ⟨hattends', hextends, .inl (Connection.rowsAt_of_storedAt hstored)⟩
  · obtain ⟨hattends', hrows⟩ := Connection.rowsAt_of_revoke hattends hrevoke
    exact ⟨hattends', hextends, hrows.imp_right fun hrows ↦ ⟨⟨b, rfl⟩, hrows⟩⟩

theorem serves_list (fresh : Key) (p : Place) :
    Serves .list fresh p fun connection d ↦
      let (r, d) := connection.identities d
      (r.mapError .list, d) := by
  intro k d hattends
  have hspares : Spares k.session p d (k.identities d).2 := by
    have hread := read_spares hattends
    unfold Connection.identities Connection.ask
    split
    next hrun => exact hread.of_run hrun
    next hrun => exact hread.of_run hrun
  exact ⟨hspares.1, k.ask_extends _ hattends.orderly.wellFormed, .inl (Connection.rowsAt_of_storedAt hspares.2)⟩

theorem disk_notice (scene : Scene) (w : Surroundings) (line : String) :
    (scene.notice w line).2.disk = scene.disk := by
  unfold Scene.notice
  split
  · rfl
  · exact scene.disk_report w [line]

theorem course_mint_of_memory {name : String} {i : Identity} (hload : loadConfiguration w config scene = .ok c)
    (htyped : Identity.typed name = .ok i) (hc : c.store.database?.isNone = true) :
    (Chore.mint name).Course w config scene p := by
  have hload' (full : Bool) : loadConfiguration { w with outputFull := full } config scene = .ok c := hload
  have hnotice (full : Bool) : scene.notice { w with outputFull := full } memoryNotice =
      scene.notice w memoryNotice := rfl
  have hdisk := disk_notice scene w memoryNotice
  rcases htold : scene.notice w memoryNotice with ⟨e | _, scene'⟩
  · rw [htold] at hdisk
    refine .stuck (e := e) (s := scene') (hdisk ▸ .refl _) (congrArg (Disk.rowsAt · p) hdisk) fun full ↦ ?_
    simp only [Chore.result, runMint, hload', htyped, hc, if_true, hnotice, htold]
  · rw [htold] at hdisk
    refine .prints (v := mintedDocument i w.freshKey false) (s := scene') (hdisk ▸ .refl _)
      (.inl (congrArg (Disk.rowsAt · p) hdisk)) fun full ↦ ?_
    simp only [Chore.result, runMint, hload', htyped, hc, if_true, hnotice, htold]

theorem course (hd : ∀ c, loadConfiguration w config scene = .ok c → Confined c scene p) (chore : Chore) :
    chore.Course w config scene p := by
  cases hload : loadConfiguration w config scene with
  | error e =>
    have hload' (full : Bool) : loadConfiguration { w with outputFull := full } config scene = .error e := hload
    refine .stuck (e := e) (s := scene) (.refl _) rfl fun full ↦ ?_
    cases chore <;> simp only [Chore.result, runMint, runRevoke, runList, hload']
  | ok c =>
    have hload' (full : Bool) : loadConfiguration { w with outputFull := full } config scene = .ok c := hload
    cases chore with
    | mint name =>
      cases htyped : Identity.typed name with
      | error e =>
        refine .stuck (e := e) (s := scene) (.refl _) rfl fun full ↦ ?_
        simp only [Chore.result, runMint, hload', htyped]
      | ok i =>
        obtain ⟨-, rfl⟩ := Identity.typed_eq_ok_iff.1 htyped
        cases hc : c.store.database?.isNone with
        | true => exact course_mint_of_memory hload htyped hc
        | false =>
          apply course_of_serves (fun k ↦ mintedDocument ⟨Text.trim name⟩ k true) (hd c hload)
            (serves_mint name w.freshKey p)
          · intro full e s hwith
            simp only [Chore.result, runMint, hload', htyped, hc, Bool.false_eq_true, if_false, hwith]
          · intro full k s hwith
            simp only [Chore.result, runMint, hload', htyped, hc, Bool.false_eq_true, if_false, hwith]
    | revoke name =>
      cases htyped : Identity.typed name with
      | error e =>
        refine .stuck (e := e) (s := scene) (.refl _) rfl fun full ↦ ?_
        simp only [Chore.result, runRevoke, hload', htyped]
      | ok i =>
        obtain ⟨-, rfl⟩ := Identity.typed_eq_ok_iff.1 htyped
        apply course_of_serves (fun b ↦ .object [("identity", .string (Text.trim name)), ("revoked", .bool b)])
          (hd c hload) (serves_revoke name w.freshKey p)
        · intro full e s hwith
          simp only [Chore.result, runRevoke, hload', htyped, hwith]
        · intro full b s hwith
          simp only [Chore.result, runRevoke, hload', htyped, hwith, Identity.toJson]
    | list =>
      apply course_of_serves (fun is ↦ .object [("identities", .array (is.map Identity.toJson))])
        (hd c hload) (serves_list w.freshKey p)
      · intro full e s hwith
        simp only [Chore.result, runList, hload', hwith]
      · intro full is s hwith
        simp only [Chore.result, runList, hload', hwith]

end Command

theorem Chore.run_eq (modules : ModuleRegistry σ) (chore : Chore) :
    (chore.command config).run w modules scene =
      Command.finish w (fun () ↦ .success) (chore.result w config scene) := by
  cases chore <;> rfl

namespace ByHand

def full : Surroundings := { (errand .list).around with outputFull := true }

end ByHand

end Gatekeeper
