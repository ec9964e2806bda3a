import Gatekeeper.Proofs.Database.Founded

namespace Gatekeeper

open Disk

theorem Site.Holds.free {x : Site} {ks : List Nat} {m n : JournalMode} {T : Database} {d : Disk}
    (h : x.Holds ks m T d) (hx : x.Fits n) : x.Free := by
  have hways := h.lodges.ways
  cases h with
  | inFile h =>
    refine ⟨hx.short, (hways.directory _).symm.trans (isDirectoryAt_of_none h.journal), ?_⟩
    refine (hways.directory _).symm.trans (Bool.eq_false_iff.2 fun hdirectory ↦ ?_)
    have habsent := h.absent
    rw [isPresent, eq_of_beq hdirectory] at habsent
    cases habsent
  | inLog h =>
    refine ⟨hx.short, (hways.directory _).symm.trans (isDirectoryAt_of_none h.journal), ?_⟩
    rw [← hways.directory, isDirectoryAt, h.log]
    rfl

namespace Connection

variable {d d' w : Disk} {s : DatabaseSettings} {c : Connection} {x : Site} {path : String}

theorem setUp_free (h : x.Fresh c.session d) (hx : x.Fits s.journalMode) (hfree : x.Free)
    (hwait : s.busyTimeoutMs ≤ DatabaseSettings.maxBusyTimeoutMs) : ∃ d', c.setUp d s = (.opened c, d') := by
  have hset := setUp_fresh (s := s) h hx.parent hx.index
  cases hdone : c.setUp d s with
  | mk o d' =>
    rw [hdone] at hset
    cases o with
    | opened c' =>
      obtain ⟨rfl, -⟩ := hset
      exact ⟨d', rfl⟩
    | refused e => exact absurd hfree hset.2.1
    | breakdown => exact absurd hwait (Nat.not_le.2 hset)

theorem walk_atWork (d : Disk) (program : Nat) (p : Place) (names : List String) :
    ({ d with program } : Disk).walk p names = d.walk p names := by
  have hdirectory (q : Place) : ({ d with program } : Disk).isDirectoryAt q = d.isDirectoryAt q := rfl
  induction names generalizing p with
  | nil => rfl
  | cons name names ih => simp only [walk, hdirectory, ih]

theorem checkPath_atWork (d : Disk) (program : Nat) (path : String) :
    checkPath { d with program } path = checkPath d path := by
  have hfind : ({ d with program } : Disk).find? path = d.find? path := by
    rw [find?, find?, walk_atWork]
    rfl
  have hdirectory : ({ d with program } : Disk).isDirectory path = d.isDirectory path := by
    rw [isDirectory, isDirectory, hfind]
    rfl
  rw [checkPath, checkPath, hdirectory]

theorem openAt?_atWork (w : Disk) (program : Nat) (p : Place) :
    ({ w with program } : Disk).openAt? p = (w.openAt? p).map fun opened ↦ (opened.1, { opened.2 with program }) := by
  have hnode : ({ w with program } : Disk).node? p = w.node? p := rfl
  have hcan : ({ w with program } : Disk).canCreate p = w.canCreate p := rfl
  rw [openAt?, openAt?, hnode, hcan]
  split
  · rfl
  · rfl
  · split <;> rfl

theorem connect_atWork (hfile : Site.NamesFile path) {k : Nat} (h : (Engine.connect path).run w = (.ok k, d'))
    (program : Nat) : ∃ k d'', (Engine.connect path).run { w with program } = (.ok k, d'') := by
  have hopens : Engine.Yields (Engine.connect path) { w with program } fun r d'' ↦ ∃ k, r = .ok k := by
    have hconnect : Engine.Yields (Engine.connect path) w fun r _ ↦ ∃ k, r = .ok k := by
      rw [Engine.Yields, h]
      exact ⟨k, rfl⟩
    rw [Site.yields_connect hfile] at hconnect ⊢
    rw [databasePlace?_atWork]
    cases hplace : w.databasePlace? path with
    | none => simp [hplace] at hconnect
    | some p =>
      simp only [hplace, Site.yields_openFile, openAt?_atWork] at hconnect ⊢
      cases hopen : w.openAt? p with
      | none => simp [hopen] at hconnect
      | some opened => exact ⟨_, rfl⟩
  obtain ⟨k, hk⟩ := hopens
  exact ⟨k, _, Prod.ext hk rfl⟩

end Connection

theorem Disk.Clear.admits {d d' : Disk} {s : DatabaseSettings} {c : Connection} (hd : d.Clear s.path)
    (hp : Address.IsPlain s.path) (h : Connection.openDatabase d s = (.opened c, d')) (program : Nat) :
    ∃ c d', Connection.openDatabase { d with program } s = (.opened c, d') := by
  have hwait := Connection.wait_of_openDatabase h
  obtain ⟨w, d₁, d₂, hcheck, hmake, hconnect, hturn, hprepare⟩ := Connection.openDatabase_eq_opened h
  have hmade := Connection.clear_makeParent hd
  rw [hmake] at hmade
  have hnamed := Connection.named_of_makeParent hmake
  obtain ⟨hfile, x, rfl, hplace, hfresh, hparent⟩ := (Connection.connect_clear hp hmade hnamed).of_run hconnect
  have hturned := (hfresh.turn s.journalMode).of_run hturn
  obtain ⟨hx, hholds⟩ := Connection.fits_of_prepare hturned hparent hprepare
  have hfree := hholds.free hx
  -- Whoever else opens the database comes to the same place.
  have hcheck' := Connection.checkPath_atWork d program s.path
  have hmake' := makeParent_atWork d program s.path
  rw [hcheck] at hcheck'
  rw [hmake] at hmake'
  obtain ⟨k, d₃, hconnect'⟩ := Connection.connect_atWork hfile hconnect program
  obtain ⟨-, y, hways, hplace', hfresh', -⟩ :=
    (Connection.connect_clear hp (hmade.atWork program) hnamed).of_run hconnect'
  rw [databasePlace?_atWork, hplace] at hplace'
  have hy : y.Fits s.journalMode ∧ y.Free := by
    obtain ⟨yways, yplace, yfile⟩ := y
    cases hways
    cases hplace'
    exact ⟨⟨hx.parent, hx.short, hx.index⟩, hfree.short, hfree.journal, hfree.log⟩
  obtain ⟨d₄, hset⟩ := Connection.setUp_free (c := ⟨k⟩) hfresh' hy.1 hy.2 hwait
  exact ⟨⟨k⟩, d₄, by simp only [Connection.openDatabase, hcheck', hmake', hconnect', hset]⟩

end Gatekeeper
