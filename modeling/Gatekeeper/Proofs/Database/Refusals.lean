import Gatekeeper.Proofs.Database.Altered
import Gatekeeper.Proofs.Disk.Ways

namespace Gatekeeper

open Disk Engine

variable {d d' : Disk} {p q : Place} {s : Session} {n number : Nat} {T : Database} {i : Image} {mode : JournalMode}

/-- Whether an address has no place on the disk. -/
def Address.isHidden (a : Address) : Bool := a.isInMemory || a.path.isEmpty || a.fileSystem == .memory

namespace Disk

def placeOf? (d : Disk) (path : String) : Option Place :=
  match Address.parse path with
  | .error _ => none
  | .ok a => if a.isHidden then none else d.databasePlace? a.path

/-- The session that whoever opens a path has in common with others, or shares the file of. -/
def shared? (d : Disk) (path : String) : Option Session :=
  match Address.parse path with
  | .error _ => none
  | .ok a =>
    if a.isHidden then (named? d (sharedName a a.path)).map fun s ↦
      if a.isInMemory then s else newSession a s.file none (sharedName a a.path)
    else (d.databasePlace? a.path).bind fun q ↦ named? d (sharedName a q.text)

/-- Whether a path leads whoever opens it to what is stored at one place, or to something apart. -/
structure Confines (d : Disk) (path : String) (p : Place) : Prop extends d.Orderly where
  place : ∀ q, d.placeOf? path = some q → q = p
  shared : ∀ s, d.shared? path = some s → s.WorksOn p d ∨ s.WorksApart d

end Disk

namespace Engine

def Connects (p : Place) (d : Disk) (r : Except EngineFault Nat) (d' : Disk) : Prop :=
  d'.Orderly ∧ d'.storedAt p = d.storedAt p ∧ ∀ k, r = .ok k → Attends k p d'

theorem Connects.of_eq {d₁ : Disk} {r : Except EngineFault Nat} (h : Connects p d₁ r d')
    (hd₁ : d₁.storedAt p = d.storedAt p) : Connects p d r d' := ⟨h.1, h.2.1.trans hd₁, h.2.2⟩

theorem begin_connects (hd : d.Orderly) (hlives : s.LivesOn d) (hs : s.WorksOn p d ∨ s.WorksApart d) :
    Yields (begin s) d (Connects p d) := by
  have hadd : (d.addSession s).2.Orderly :=
    hd.of_names (extends_addSession d hlives).wellFormed fun _ _ ↦ id
  refine ⟨hadd, rfl, fun k hk ↦ ⟨hadd, { s with number := d.opened, program := d.program }, ?_, ?_⟩⟩
  · cases hk
    exact List.find?_cons_of_pos (by simp)
  · rcases hs with hs | hs
    · exact .inl ⟨hs.place, hs.file, hs.log, hs.paged⟩
    · exact .inr ⟨hs.place, hs.log, hs.nameless⟩

theorem join_connects (hd : d.Orderly) (hmem : s ∈ d.sessions) (hs : s.WorksOn p d ∨ s.WorksApart d) :
    Yields (join s) d (Connects p d) := by
  have hset : (d.setSession { s with users := s.users + 1 }).Orderly :=
    hd.setSession ⟨(hd.wellFormed.sessions s hmem).file, (hd.wellFormed.sessions s hmem).log⟩
  refine ⟨hset, rfl, fun k hk ↦ ⟨hset, { s with users := s.users + 1 }, ?_, ?_⟩⟩
  · -- Whichever session is found under the number has become the one that was joined.
    cases hk
    have hfound : (d.session? s.number).isSome := List.find?_isSome.2 ⟨s, hmem, by simp⟩
    obtain ⟨t, ht⟩ := Option.isSome_iff_exists.1 hfound
    exact session?_of_setSession (t := { s with users := s.users + 1 }) ht (session?_number ht).symm rfl
  · rcases hs with hs | hs
    · exact .inl ⟨hs.place, hs.file, hs.log, hs.paged⟩
    · exact .inr ⟨hs.place, hs.log, hs.nameless⟩

theorem openHidden_connects {a : Address} (hd : d.Orderly)
    (hshared : ∀ s, named? d (sharedName a a.path) = some s →
      (if a.isInMemory then s else newSession a s.file none (sharedName a a.path)).WorksOn p d ∨
        (if a.isInMemory then s else newSession a s.file none (sharedName a a.path)).WorksApart d) :
    Yields (openHidden a) d (Connects p d) := by
  unfold openHidden
  rw [yields_bind, yields_get]
  dsimp only
  split
  next s hs =>
    have hmem := named?_mem hs
    have hs' := hshared s hs
    rw [yields_ite]
    split
    next hmemory =>
      simp only [hmemory, if_true] at hs'
      exact join_connects hd hmem hs'
    next hmemory =>
      simp only [hmemory] at hs'
      exact begin_connects hd (livesOn_newSession a none _ (hd.wellFormed.sessions s hmem).file) hs'
  · rw [yields_bind, yields_set]
    have hadd : (d.addContent (.bytes [])).2.Orderly :=
      hd.of_names (·.addContent _) fun _ _ ↦ id
    have hlt : d.contents.length < (d.addContent (.bytes [])).2.contents.length := by
      have hlength := length_addContent d (.bytes [])
      omega
    have hpast : Bypasses p d (d.addContent (.bytes [])).2 := by
      refine ⟨rfl, rfl, fun n hn ↦ List.getElem?_append_left ?_⟩
      exact hn.elim hd.wellFormed.lt_of_fileAt? hd.wellFormed.lt_of_fileAt?
    have hapart : (newSession a d.contents.length none (sharedName a a.path)).WorksApart
        (d.addContent (.bytes [])).2 := by
      refine ⟨rfl, rfl, fun q hq ↦ ?_⟩
      exact Nat.lt_irrefl _ (hd.wellFormed.lt_of_fileAt? hq)
    exact (begin_connects hadd (livesOn_newSession a none _ hlt) (.inr hapart)).imp
      fun _ _ h ↦ h.of_eq hpast.storedAt

theorem storedAt_openAt? (hd : d.Orderly) (h : d.openAt? p = some (n, d')) :
    d'.fileAt? p = some n ∧ d'.storedAt p = d.storedAt p := by
  rcases openAt?_cases h with ⟨hnode, rfl⟩ | ⟨hnode, rfl, rfl⟩
  · exact ⟨fileAt?_of_node? hnode, rfl⟩
  · have hfile : (d.createFile p (.bytes [])).2.fileAt? p = some d.contents.length :=
      fileAt?_of_node? (node?_createFile_self (ne_nil_of_none hnode))
    have hnone : d.fileAt? p = none := by
      rw [fileAt?, hnode]
    refine ⟨hfile, ?_⟩
    rw [Disk.storedAt, foundAt?, hfile, Option.bind_some, content?_createFile_self, Disk.storedAt, foundAt?, hnone,
      Content.under_of_isBlank rfl]
    exact (Content.under_of_isBlank rfl _).symm

theorem openFile_connects {a : Address} (hd : d.Orderly)
    (hshared : ∀ s, named? d (sharedName a p.text) = some s → s.WorksOn p d ∨ s.WorksApart d) :
    Yields (openFile a p) d (Connects p d) := by
  unfold openFile
  rw [yields_bind, yields_get]
  dsimp only
  split
  next s hs => exact join_connects hd (named?_mem hs) (hshared s hs)
  · split
    · exact ⟨hd, rfl, nofun⟩
    next file d₁ hopen =>
      have hopened : d₁.Orderly ∧ d₁.fileAt? p = some file ∧ d₁.storedAt p = d.storedAt p := by
        split at hopen
        · exact ⟨hd.openAt? hopen, storedAt_openAt? hd hopen⟩
        · obtain ⟨m, hm, h⟩ := Option.map_eq_some_iff.1 hopen
          cases h
          exact ⟨hd, hm, rfl⟩
      obtain ⟨hd₁, hfile, hstored⟩ := hopened
      have hworks : (newSession a file (some p) (sharedName a p.text)).WorksOn p d₁ := ⟨rfl, hfile, nofun, nofun⟩
      rw [yields_bind, yields_set]
      exact (begin_connects hd₁ (hworks.livesOn hd₁) (.inl hworks)).imp fun _ _ h ↦ h.of_eq hstored

theorem connect_connects {path : String} (hd : d.Confines path p) :
    Yields (connect path) d (Connects p d) := by
  have hfail (e : EngineFault) : Connects p d (.error e) d := ⟨hd.toOrderly, rfl, nofun⟩
  have hplace := hd.place
  have hshared := hd.shared
  unfold connect
  unfold placeOf? at hplace
  unfold shared? at hshared
  split
  · exact hfail _
  next a hparse =>
    simp only [hparse] at hplace hshared
    rw [yields_ite]
    split
    next hhidden =>
      have hhidden' : a.isHidden = true := hhidden
      simp only [hhidden', if_true, Option.map_eq_some_iff] at hshared
      exact openHidden_connects hd.toOrderly fun s hs ↦ hshared _ ⟨s, hs, rfl⟩
    next hhidden =>
      have hhidden' : a.isHidden = false := by simpa [Address.isHidden] using hhidden
      simp only [hhidden'] at hplace hshared
      rw [yields_bind, yields_get]
      dsimp only
      split
      · exact hfail _
      next q hq =>
        obtain rfl := hplace q hq
        simp only [hq, Option.bind_some] at hshared
        exact openFile_connects hd.toOrderly hshared

end Engine

namespace Connection

variable {α : Type} {settings : DatabaseSettings} {c c' : Connection} {e : DatabaseError} {a : α}
  {x : Except DatabaseError (α × Option Database)} {f : Transaction α} {o : Opening}

theorem spares_of_conclude (h : Attends c.session p d) (hsteady : Steady d c.session T)
    (hdone : c.conclude d x = (.error e, d')) : Spares c.session p d d' := by
  cases x with
  | error e =>
    obtain ⟨-, rfl⟩ := Prod.mk.inj hdone
    exact h.spares
  | ok result =>
    obtain ⟨a, tables?⟩ := result
    simp only [conclude] at hdone
    rcases hwrite : (write c.session tables?).run d with ⟨_ | _, d₁⟩
    · simp only [hwrite, Prod.mk.injEq] at hdone
      have hsame : d₁ = d := (write_leaves h hsteady tables?).of_run hwrite
      exact hdone.2 ▸ hsame ▸ h.spares
    · simp [hwrite] at hdone

theorem leaves_of_conclude (h : Attends c.session p d) (hsteady : Steady d c.session T)
    (hdone : c.conclude d x = (.ok a, d')) :
    ∃ tables?, x = .ok (a, tables?) ∧ Attends c.session p d' ∧ Leaves p d T tables? d' := by
  cases x with
  | error e => cases hdone
  | ok result =>
    obtain ⟨b, tables?⟩ := result
    simp only [conclude] at hdone
    rcases hwrite : (write c.session tables?).run d with ⟨_ | _, d₁⟩
    · simp [hwrite] at hdone
    · simp only [hwrite, Prod.mk.injEq, Except.ok.injEq] at hdone
      obtain ⟨rfl, rfl⟩ := hdone
      exact ⟨tables?, rfl, (write_leaves h hsteady tables?).of_run hwrite⟩

theorem spares_of_run (h : Attends c.session p d) (hrun : c.run d f = (.error e, d')) : Spares c.session p d d' := by
  unfold run at hrun
  split at hrun
  next hfail =>
    obtain ⟨-, rfl⟩ := Prod.mk.inj hrun
    exact (spares_of_read h hfail).1
  next T d₁ hok =>
    obtain ⟨hspares, hsteady⟩ := spares_of_read h hok
    exact hspares.trans (spares_of_conclude hspares.1 (hsteady T rfl) hrun)

theorem leaves_of_run (h : Attends c.session p d) (hrun : c.run d f = (.ok a, d')) :
    ∃ T tables?, f T = .ok (a, tables?) ∧ Attends c.session p d' ∧ Leaves p d T tables? d' := by
  unfold run at hrun
  split at hrun
  · cases hrun
  next T d₁ hok =>
    obtain ⟨⟨hattends, hstored⟩, hsteady⟩ := spares_of_read h hok
    obtain ⟨tables?, hf, hattends', hleaves⟩ := leaves_of_conclude hattends (hsteady T rfl) hrun
    exact ⟨T, tables?, hf, hattends', hleaves.of_eq hstored⟩

theorem spares_of_prepare (h : Attends c.session p d) (hprepare : c.prepare d = (.error e, d')) :
    Spares c.session p d d' := by
  unfold prepare ask at hprepare
  rcases hrun : (read c.session).run d with ⟨_ | T, d₁⟩
  · simp only [hrun, Prod.mk.injEq] at hprepare
    exact hprepare.2 ▸ (spares_of_read h hrun).1
  · obtain ⟨hspares, hsteady⟩ := spares_of_read h hrun
    simp only [hrun] at hprepare
    cases hT : T.prepare with
    | error e =>
      simp only [hT, Prod.mk.injEq] at hprepare
      exact hprepare.2 ▸ hspares
    | ok tables? =>
      cases tables? with
      | none => simp [hT] at hprepare
      | some T' =>
        simp only [hT] at hprepare
        exact hspares.trans (spares_of_conclude hspares.1 (hsteady T rfl) hprepare)

theorem leaves_of_prepare (h : Attends c.session p d) (hprepare : c.prepare d = (.ok (), d')) :
    ∃ T tables?, Database.prepare T = .ok tables? ∧ Attends c.session p d' ∧ Leaves p d T tables? d' := by
  obtain ⟨T, d₁, hrun, hT⟩ := prepare_eq_ok hprepare
  obtain ⟨⟨hattends, hstored⟩, hsteady⟩ := spares_of_read h hrun
  rcases hT with ⟨hT, rfl⟩ | ⟨T', hT, hwrite⟩
  · exact ⟨T, none, hT, hattends, .same hstored⟩
  · obtain ⟨hattends', hleaves⟩ := (write_leaves hattends (hsteady T rfl) (some T')).of_run hwrite
    exact ⟨T, some T', hT, hattends', hleaves.of_eq hstored⟩

theorem confines_makeParent {path : String} (h : d.Confines path p) : (makeParent d path).2.Confines path p ∧
    (makeParent d path).2.storedAt p = d.storedAt p := by
  obtain ⟨⟨entries, hw⟩, hfiles, -⟩ := makeParent_adds d path
  have hwell := (makeParent_extends d path).wellFormed
  generalize (makeParent d path).2 = w at *
  have hpast : Bypasses p d w := ⟨hfiles p, hfiles _, fun n _ ↦ by rw [hw]; rfl⟩
  have hplaces (text : String) : w.databasePlace? text = d.databasePlace? text :=
    databasePlace?_congr (by rw [hw]) (enginePlace?_congr hfiles _ _)
  have hplace : w.placeOf? path = d.placeOf? path := by
    simp only [placeOf?, hplaces]
  have hshared : w.shared? path = d.shared? path := by
    have hnamed (name : Option String) : named? w name = named? d name := by rw [hw]; rfl
    simp only [shared?, hplaces, hnamed]
  refine ⟨⟨h.toOrderly.of_names hwell fun q n hq ↦ (hfiles q).symm.trans hq, ?_, fun s hs ↦ ?_⟩, hpast.storedAt⟩
  · rw [hplace]
    exact h.place
  · rw [hshared] at hs
    refine (h.shared s hs).imp (fun hs ↦ hs.bypasses hpast) fun hs ↦ ⟨hs.place, hs.log, fun q ↦ ?_⟩
    rw [hfiles]
    exact hs.nameless q

/-- Whether an opening is refused by what makes or checks the tables, once the journal has been turned. -/
def RefusedLate (d : Disk) (settings : DatabaseSettings) (e : DatabaseError) : Prop :=
  ∃ (c : Connection) (w d₁ d₂ : Disk), makeParent d settings.path = (true, w) ∧
    (connect settings.path).run w = (.ok c.session, d₁) ∧
    (turn c.session settings.journalMode).run d₁ = (.ok (), d₂) ∧ (c.prepare d₂).1 = .error e

/-- Either an opening has ended before it has a connection, and nothing is stored that was not, or all is up to
making a connection ready. -/
theorem openDatabase_reaches (hd : d.Confines settings.path p) (h : openDatabase d settings = (o, d')) :
    (∀ c, o ≠ .opened c) ∧ d'.storedAt p = d.storedAt p ∨
      ∃ (c : Connection) (w d₁ : Disk), makeParent d settings.path = (true, w) ∧
        (connect settings.path).run w = (.ok c.session, d₁) ∧ Attends c.session p d₁ ∧
        d₁.storedAt p = d.storedAt p ∧ c.setUp d₁ settings = (o, d') := by
  obtain ⟨hparent, hstored⟩ := confines_makeParent hd
  have hopens := opens d settings
  rw [h] at hopens
  generalize hdone : (o, d') = done at hopens
  cases hopens with
  | badPath =>
    cases hdone
    exact .inl ⟨nofun, rfl⟩
  | noParent hmake =>
    rw [hmake] at hstored
    cases hdone
    exact .inl ⟨nofun, hstored⟩
  | noFile hmake hrun =>
    rw [hmake] at hparent hstored
    cases hdone
    obtain ⟨-, hconnected, -⟩ := (connect_connects hparent).of_run hrun
    exact .inl ⟨nofun, hconnected.trans hstored⟩
  | @connected w d₁ k _ hmake hrun =>
    rw [hmake] at hparent hstored
    obtain ⟨-, hconnected, hattends⟩ := (connect_connects hparent).of_run hrun
    exact .inr ⟨⟨k⟩, w, d₁, hmake, hrun, hattends k rfl, hconnected.trans hstored, rfl⟩

theorem setUp_refused (h : Attends c.session p d) (hset : c.setUp d settings = (.refused e, d')) :
    d'.storedAt p = d.storedAt p ∨
      (∃ d₁, (turn c.session settings.journalMode).run d = (.ok (), d₁) ∧ (c.prepare d₁).1 = .error e) ∧
        d'.storedAt p = (d.storedAt p).map fun i ↦ { i with journal := settings.journalMode } := by
  have hturned := turn_adjusts h settings.journalMode
  have hsets := c.setsUp d settings
  rw [hset] at hsets
  cases hsets with
  | unturned hturn =>
    obtain ⟨hattends, hsame | ⟨hok, -⟩⟩ := hturned.of_run hturn
    · exact .inl (hattends.storedAt_leave.trans hsame)
    · cases hok
  | @unprepared _ d₁ d₂ hturn hprepare =>
    obtain ⟨hattends, hstored⟩ := hturned.of_run hturn
    obtain ⟨hattends₂, hstored₂⟩ := spares_of_prepare hattends hprepare
    have hsame : (c.close d₂).storedAt p = d₁.storedAt p := hattends₂.storedAt_leave.trans hstored₂
    rw [hsame]
    refine hstored.imp_right fun ⟨_, hjournal⟩ ↦ ⟨⟨d₁, hturn, ?_⟩, hjournal⟩
    rw [hprepare]

/-- An opening that is refused leaves the tables that are stored as they were. The journal has at most been
turned to the mode that was asked for, and that only by an opening that is refused for what it finds in the
tables, or cannot get at them. -/
theorem refusal_spares_tables (hd : d.Confines settings.path p)
    (h : openDatabase d settings = (.refused e, d')) :
    (d'.storedAt p).map Image.tables = (d.storedAt p).map Image.tables ∧
      (d'.storedAt p = d.storedAt p ∨ RefusedLate d settings e ∧
        d'.storedAt p = (d.storedAt p).map fun i ↦ { i with journal := settings.journalMode }) := by
  have hturned : d'.storedAt p = d.storedAt p ∨ RefusedLate d settings e ∧
      d'.storedAt p = (d.storedAt p).map fun i ↦ { i with journal := settings.journalMode } := by
    rcases openDatabase_reaches hd h with ⟨-, hsame⟩ | ⟨c, w, d₁, hmake, hrun, hattends, hstored, hset⟩
    · exact .inl hsame
    · have hrefused := setUp_refused hattends hset
      rw [hstored] at hrefused
      refine hrefused.imp_right fun ⟨⟨d₂, hturn, hprepare⟩, hjournal⟩ ↦ ⟨?_, hjournal⟩
      exact ⟨c, w, d₁, d₂, hmake, hrun, hturn, hprepare⟩
  refine ⟨?_, hturned⟩
  rcases hturned with hsame | ⟨-, hjournal⟩
  · rw [hsame]
  · rw [hjournal]
    cases d.storedAt p <;> rfl

def laterSchema : Disk :=
  (createFile {} ["k.db"]
    (.image { journal := .delete, tables := { versions := some [.integer 2], keys := some ∅ } })).2

theorem confines_laterSchema : laterSchema.Confines "k.db" ["k.db"] where
  toOrderly := orderly_empty.createFile _ _
  place := by
    intro q hq
    exact (Option.some.inj hq).symm
  shared := nofun

theorem refusal_spares_tables_version : laterSchema.Confines "k.db" ["k.db"] ∧
    ∃ d', openDatabase laterSchema { path := "k.db" } = (.refused (.version 2), d') ∧
      (d'.storedAt ["k.db"]).map Image.tables = (laterSchema.storedAt ["k.db"]).map Image.tables :=
  have hrefused : openDatabase laterSchema { path := "k.db" } = (.refused (.version 2), _) := rfl
  ⟨confines_laterSchema, _, hrefused, (refusal_spares_tables confines_laterSchema hrefused).1⟩

/-- A database that is refused for its version may have another journal by then. -/
theorem refusal_turns_journal : (laterSchema.storedAt ["k.db"]).map Image.journal = .ok .delete ∧
    ∃ d', openDatabase laterSchema { path := "k.db", journalMode := .wal } = (.refused (.version 2), d') ∧
      (d'.storedAt ["k.db"]).map Image.journal = .ok .wal := ⟨rfl, _, rfl, rfl⟩

theorem keys_of_prepare {T' : Database} (h : T.prepare = .ok (some T')) : T'.keys.getD ∅ = T.keys.getD ∅ := by
  unfold Database.prepare at h
  split at h
  · cases h
    rfl
  · split at h
    · cases h
    · cases h
  · cases h

theorem rowsAt_of_storedAt (h : d'.storedAt p = d.storedAt p) : d'.rowsAt p = d.rowsAt p := by
  rw [rowsAt, rowsAt, h]

theorem rowsAt_of_adjusts {r : Except EngineFault Unit} (h : Adjusts number mode p d r d') :
    d'.rowsAt p = d.rowsAt p := by
  rcases h.2 with hsame | ⟨-, hjournal⟩
  · exact rowsAt_of_storedAt hsame
  · rw [rowsAt, rowsAt, hjournal]
    cases d.storedAt p <;> rfl

theorem rowsAt_of_prepare (h : Attends c.session p d) (hprepare : c.prepare d = (.ok (), d')) :
    d'.rowsAt p = d.rowsAt p := by
  obtain ⟨T, tables?, hT, -, hleaves⟩ := leaves_of_prepare h hprepare
  cases hleaves with
  | same hsame => exact rowsAt_of_storedAt hsame
  | others hi htables hsome hstored =>
    subst hsome htables
    rw [rowsAt, rowsAt, hstored, hi]
    exact congrArg Except.ok (keys_of_prepare hT)

theorem setUp_keeps_rows (h : Attends c.session p d) (hset : c.setUp d settings = (o, d')) :
    d'.rowsAt p = d.rowsAt p ∧ ∀ c', o = .opened c' → Attends c'.session p d' := by
  have hturned := turn_adjusts h settings.journalMode
  have hclosed {d₁ : Disk} (hattends : Attends c.session p d₁) : (c.close d₁).rowsAt p = d₁.rowsAt p :=
    rowsAt_of_storedAt hattends.storedAt_leave
  have hsets := c.setsUp d settings
  rw [hset] at hsets
  cases hsets with
  | unturned hturn =>
    have hadjusts := hturned.of_run hturn
    exact ⟨(hclosed hadjusts.1).trans (rowsAt_of_adjusts hadjusts), nofun⟩
  | tooLong hturn =>
    have hadjusts := hturned.of_run hturn
    exact ⟨(hclosed hadjusts.1).trans (rowsAt_of_adjusts hadjusts), nofun⟩
  | unprepared hturn hprepare =>
    have hadjusts := hturned.of_run hturn
    obtain ⟨hattends, hstored⟩ := spares_of_prepare hadjusts.1 hprepare
    have hrows := (rowsAt_of_storedAt hstored).trans (rowsAt_of_adjusts hadjusts)
    exact ⟨(hclosed hattends).trans hrows, nofun⟩
  | ready hturn _ hprepare =>
    have hadjusts := hturned.of_run hturn
    obtain ⟨-, -, -, hattends, -⟩ := leaves_of_prepare hadjusts.1 hprepare
    refine ⟨(rowsAt_of_prepare hadjusts.1 hprepare).trans (rowsAt_of_adjusts hadjusts), ?_⟩
    intro c' hc'
    cases hc'
    exact hattends

theorem openDatabase_keeps_rows (hd : d.Confines settings.path p) (h : openDatabase d settings = (o, d')) :
    d'.rowsAt p = d.rowsAt p ∧ ∀ c, o = .opened c → Attends c.session p d' := by
  rcases openDatabase_reaches hd h with ⟨hunopened, hsame⟩ | ⟨c, w, d₁, -, -, hattends, hstored, hset⟩
  · exact ⟨rowsAt_of_storedAt hsame, fun c hc ↦ absurd hc (hunopened c)⟩
  · obtain ⟨hrows, hopened⟩ := setUp_keeps_rows hattends hset
    exact ⟨hrows.trans (rowsAt_of_storedAt hstored), hopened⟩

end Connection

end Gatekeeper
