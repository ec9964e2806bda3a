import Gatekeeper.Proofs.Database.Stored

namespace Gatekeeper

open Disk Engine

variable {d d' : Disk} {p q : Place} {s : Session} {n number : Nat} {T : Database} {i : Image} {mode : JournalMode}

namespace Engine

theorem logAt?_setContent (hd : d.Orderly) (hs : s.WorksOn p d) (c : Content) :
    (d.setContent s.file c).logAt? p = d.logAt? p := by
  have hfound : (d.setContent s.file c).foundAt? (logOf p) = d.foundAt? (logOf p) := by
    refine Option.bind_congr fun n hn ↦ content?_setContent_of_ne ?_
    rintro rfl
    exact hd.fileAt?_ne hs.file hs.text_log.symm hn
  rw [logAt?, logAt?, hfound]

theorem setContent_stores (hd : d.Orderly) (hs : s.WorksOn p d) (hnumber : d.session? number = some s)
    (habsent : d.logAt? p = none) (i : Image) :
    Attends number p (d.setContent s.file (.image i)) ∧ (d.setContent s.file (.image i)).storedAt p = .ok i := by
  have hcontent : contentOf (d.setContent s.file (.image i)) s = .image i := by
    rw [contentOf, content?_setContent d _ (hs.livesOn hd).file, Option.getD_some]
  have hworks : s.WorksOn p (d.setContent s.file (.image i)) := by
    refine ⟨hs.place, hs.file, hs.log, fun _ ↦ ?_⟩
    rw [hcontent]
    rfl
  refine ⟨⟨hd.setContent _ _, s, hnumber, .inl hworks⟩, ?_⟩
  rw [hworks.storedAt, logAt?_setContent hd hs, habsent, hcontent]
  rfl

theorem writeFile_stores (hd : d.Orderly) (hs : s.WorksOn p d) (hnumber : d.session? number = some s)
    (habsent : d.logAt? p = none) (i : Image) :
    Yields (writeFile s i) d fun r d' ↦ match r with
      | .error _ => d' = d
      | .ok _ => Attends number p d' ∧ d'.storedAt p = .ok i := by
  refine (writeFile_yields s i).imp ?_
  intro r d' hd'
  cases r with
  | error e => exact hd'
  | ok _ =>
    rcases hd' with rfl | ⟨q, hq, rfl⟩
    · exact setContent_stores hd hs hnumber habsent i
    · obtain rfl : p = q := Option.some.inj (hs.place.symm.trans hq)
      have hpast := bypasses_unlink d hs.text_journal (text_journalOf_ne_logOf p).symm
      refine setContent_stores (hd.unlink _) (hs.bypasses hpast) ?_ (hpast.logAt?.trans habsent) i
      rw [session?_congr (sessions_unlink d _), hnumber]

theorem writeFile_apart (p : Place) (hd : d.Orderly) (hs : s.WorksApart d) (hnumber : d.session? number = some s)
    (i : Image) :
    Yields (writeFile s i) d fun r d' ↦ match r with
      | .error _ => d' = d
      | .ok _ => Spares number p d d' := by
  have hpast : Bypasses p d (d.setContent s.file (.image i)) := by
    refine ⟨rfl, rfl, fun n hn ↦ content?_setContent_of_ne ?_⟩
    rintro rfl
    exact hn.elim (hs.nameless p) (hs.nameless (logOf p))
  refine (writeFile_yields s i).imp ?_
  intro r d' hd'
  cases r with
  | error e => exact hd'
  | ok _ =>
    rcases hd' with rfl | ⟨q, hq, -⟩
    · exact ⟨⟨hd.setContent _ _, s, hnumber, .inr ⟨hs.place, hs.log, hs.nameless⟩⟩, hpast.storedAt⟩
    · simp [hs.place] at hq

/-- What becomes of what is stored at a place when tables are left in the place of those that were read. -/
inductive Leaves (p : Place) (d : Disk) (T : Database) (tables? : Option Database) (d' : Disk) : Prop
  | same : d'.storedAt p = d.storedAt p → Leaves p d T tables? d'
  | others {i : Image} {T' : Database} : d.storedAt p = .ok i → i.tables = T → tables? = some T' →
    d'.storedAt p = .ok { i with tables := T' } → Leaves p d T tables? d'

theorem Leaves.of_eq {d₁ : Disk} {tables? : Option Database} (h : Leaves p d₁ T tables? d')
    (hd₁ : d₁.storedAt p = d.storedAt p) : Leaves p d T tables? d' := by
  cases h with
  | same h => exact .same (h.trans hd₁)
  | others hi hT htables h => exact .others (hd₁.symm.trans hi) hT htables h

theorem writeLog_leaves (hd : d.Orderly) (hs : s.WorksOn p d) (hnumber : d.session? number = some s)
    (hlog : s.log = some n) (hi : d.storedAt p = .ok i) (T' : Database) :
    Attends number p (d.setContent n (.log T')) ∧
      (d.setContent n (.log T')).storedAt p = .ok { i with tables := T' } := by
  have hpaged : (contentOf d s).isBlank = false := hs.paged (by rw [hlog]; rfl)
  have hne : s.file ≠ n := by
    rintro rfl
    exact hd.fileAt?_ne hs.file hs.text_log.symm (hs.log _ hlog)
  have hcontent : contentOf (d.setContent n (.log T')) s = contentOf d s := by
    rw [contentOf, content?_setContent_of_ne hne, contentOf]
  have hworks : s.WorksOn p (d.setContent n (.log T')) :=
    ⟨hs.place, hs.file, hs.log, fun _ ↦ hcontent ▸ hpaged⟩
  refine ⟨⟨hd.setContent _ _, s, hnumber, .inl hworks⟩, ?_⟩
  rw [hworks.storedAt, hworks.logAt?_of_log hlog (content?_setContent d _ ((hs.livesOn hd).log n hlog)), hcontent]
  rw [hs.storedAt] at hi
  simp only [Content.under, hpaged, Bool.false_eq_true, if_false]
  -- Whether or not there were tables in the log before, the rest of the image is that of the file.
  cases hbefore : d.logAt? p with
  | some T =>
    simp only [hbefore, Content.under, hpaged, Bool.false_eq_true, if_false, Except.ok.injEq] at hi
    rw [← hi]
  | none =>
    simp only [hbefore, Content.under] at hi
    rw [hi]
    rfl

theorem write_leaves (h : Attends number p d) (hsteady : Steady d number T) (tables? : Option Database) :
    Yields (write number tables?) d fun r d' ↦ match r with
      | .error _ => d' = d
      | .ok _ => Attends number p d' ∧ Leaves p d T tables? d' := by
  obtain ⟨s, hs, hworks⟩ := h.session
  obtain ⟨t, ht, htables, hsettled⟩ := hsteady.settled
  obtain rfl : s = t := Option.some.inj (hs.symm.trans ht)
  unfold write
  rw [yields_bind, yields_session, hs]
  simp only [yields_bind, yields_ite, yields_throw]
  split
  · trivial
  next hwrite =>
    have hfixed : s.fixed = false := by
      simp only [Session.cannotWrite, Bool.or_eq_true, not_or, Bool.not_eq_true] at hwrite
      exact hwrite.1.2
    split
    · exact ⟨h, .same rfl⟩
    next T' n hlog =>
      rcases hworks with hworks | hapart
      · obtain ⟨i, hi, hT⟩ := hworks.storedAt_of_settled hsettled hfixed htables
        obtain ⟨hattends, hstored⟩ := writeLog_leaves h.orderly hworks hs hlog hi T'
        exact ⟨hattends, .others hi hT rfl hstored⟩
      · simp [hapart.log] at hlog
    next T' hlog =>
      obtain ⟨i, hi, hT⟩ := image?_of_tablesOf hlog htables
      rw [yields_bind, yields_image, hi]
      rcases hworks with hworks | hapart
      · have habsent := logAt?_of_absent (hsettled.unlogged p hworks.place hlog hfixed).1
        have hstored : d.storedAt p = .ok i := by
          rw [hworks.storedAt, habsent]
          exact hi
        refine (writeFile_stores h.orderly hworks hs habsent _).imp fun r d' hd' ↦ ?_
        cases r with
        | error e => exact hd'
        | ok _ => exact ⟨hd'.1, .others hstored hT rfl hd'.2⟩
      · refine (writeFile_apart p h.orderly hapart hs _).imp fun r d' hd' ↦ ?_
        cases r with
        | error e => exact hd'
        | ok _ => exact ⟨hd'.1, .same hd'.2⟩

theorem carryOver_stores (hd : d.Orderly) (hs : s.WorksOn p d) (hlog : s.log = some n) :
    (d.carryOver s p n).Orderly ∧ (d.carryOver s p n).sessions = d.sessions ∧
      (d.carryOver s p n).fileAt? p = some s.file ∧ (d.carryOver s p n).fileAt? (logOf p) = none ∧
      (d.carryOver s p n).storedAt p = d.storedAt p := by
  have hpaged : (contentOf d s).isBlank = false := hs.paged (by rw [hlog]; rfl)
  -- What is left to do once the file says what is stored.
  have hrest {d₁ : Disk} (hd₁ : d₁.Orderly) (hsessions : d₁.sessions = d.sessions)
      (hfile : d₁.fileAt? p = some s.file) (hlog₁ : d₁.fileAt? (logOf p) = some n)
      (hstored : (contentOf d₁ s).image? = d.storedAt p) {d₂ : Disk}
      (hd₂ : d₂ = d₁.unlink (logOf p) ∨ d₂ = (d₁.unlink (logOf p)).unlink (indexOf p)) :
      d₂.Orderly ∧ d₂.sessions = d.sessions ∧ d₂.fileAt? p = some s.file ∧ d₂.fileAt? (logOf p) = none ∧
        d₂.storedAt p = d.storedAt p := by
    have hgone : (d₁.unlink (logOf p)).fileAt? (logOf p) = none := by
      rw [fileAt?, node?_unlink_self (isDirectoryAt_of_file (node?_of_fileAt? hlog₁))]
    have hkept : (d₁.unlink (logOf p)).fileAt? p = some s.file := (fileAt?_unlink_of_ne hs.text_log).trans hfile
    have hthere : (d₁.unlink (logOf p)).storedAt p = d.storedAt p := by
      rw [Disk.storedAt, foundAt?, hkept, logAt?, foundAt?, hgone, ← hstored]
      simp only [Option.bind_some, Option.bind_none, content?, contents_unlink]
      rfl
    have hpast := bypasses_unlink (d₁.unlink (logOf p)) hs.text_index (text_logOf_ne_indexOf p)
    rcases hd₂ with rfl | rfl
    · exact ⟨hd₁.unlink _, (sessions_unlink _ _).trans hsessions, hkept, hgone, hthere⟩
    · refine ⟨(hd₁.unlink _).unlink _, ?_, hpast.file.trans hkept, hpast.log.trans hgone,
        hpast.storedAt.trans hthere⟩
      rw [sessions_unlink, sessions_unlink, hsessions]
  unfold carryOver
  split
  next tables hc =>
    have himage : (d.content? s.file).bind (fun c ↦ c.image?.toOption) = (contentOf d s).image?.toOption := by
      cases hfound : d.content? s.file with
      | some c => simp [contentOf, hfound]
      | none => simp [contentOf, hfound, Content.isBlank, Database.Format.isBlank] at hpaged
    have hstored : (contentOf (d.setContent s.file (.image { (((d.content? s.file).bind
        fun c ↦ c.image?.toOption).getD { journal := .wal } : Image) with tables })) s).image? = d.storedAt p := by
      rw [contentOf, content?_setContent d _ (hs.livesOn hd).file, himage, hs.storedAt,
        hs.logAt?_of_log hlog hc]
      simp only [Content.under, hpaged, Bool.false_eq_true, if_false]
      rfl
    refine hrest (hd.setContent _ _) rfl hs.file (hs.log n hlog) hstored ?_
    dsimp only
    split
    · exact .inl rfl
    · exact .inr rfl
  next hc =>
    have hstored : (contentOf d s).image? = d.storedAt p := by
      rw [hs.storedAt, hs.logAt?_of_ne_log hlog hc]
      rfl
    refine hrest hd rfl hs.file (hs.log n hlog) hstored ?_
    dsimp only
    split
    · exact .inl rfl
    · exact .inr rfl

theorem Attends.storedAt_leave (h : Attends number p d) : (d.leave number).storedAt p = d.storedAt p := by
  obtain ⟨s, hs, hworks⟩ := h.session
  unfold leave
  rw [hs]
  dsimp only
  split
  · rfl
  · split
    next q n hplace hlog =>
      split
      · rfl
      · rcases hworks with hworks | hapart
        · obtain rfl : p = q := Option.some.inj (hworks.place.symm.trans hplace)
          have hrest : ({ d with sessions := d.sessions.filter fun t ↦ t.number ≠ number } : Disk).Orderly :=
            h.orderly.of_names (extends_filterSessions d _).wellFormed fun _ _ ↦ id
          have hpast : Bypasses p d { d with sessions := d.sessions.filter fun t ↦ t.number ≠ number } :=
            ⟨rfl, rfl, fun _ _ ↦ rfl⟩
          exact (carryOver_stores hrest (hworks.bypasses hpast) hlog).2.2.2.2
        · simp [hapart.place] at hplace
    · rfl

def Adjusts (number : Nat) (mode : JournalMode) (p : Place) (d : Disk) (r : Except EngineFault Unit) (d' : Disk) :
    Prop :=
  Attends number p d' ∧ (d'.storedAt p = d.storedAt p ∨
    r = .ok () ∧ d'.storedAt p = (d.storedAt p).map fun i ↦ { i with journal := mode })

theorem Attends.adjusts (h : Attends number p d) (mode : JournalMode) (r : Except EngineFault Unit) :
    Adjusts number mode p d r d := ⟨h, .inl rfl⟩

theorem Adjusts.of_eq {d₁ : Disk} {r : Except EngineFault Unit} (h : Adjusts number mode p d₁ r d')
    (hd₁ : d₁.storedAt p = d.storedAt p) : Adjusts number mode p d r d' := by
  rw [Adjusts, hd₁] at h
  exact h

theorem setJournal_adjusts (hd : d.Orderly) (hnumber : d.session? number = some s)
    (hs : s.WorksOn p d ∧ d.logAt? p = none ∨ s.WorksApart d) (mode : JournalMode) :
    Yields (setJournal s mode) d (Adjusts number mode p d) := by
  have hattends : Attends number p d := ⟨hd, s, hnumber, hs.imp_left And.left⟩
  unfold setJournal
  rw [yields_bind, yields_image]
  cases hi : (contentOf d s).image? with
  | error e => exact hattends.adjusts mode _
  | ok i =>
    dsimp only
    rw [yields_ite]
    split
    · rw [yields_ite]
      split
      · exact hattends.adjusts mode _
      · rcases hs with ⟨hworks, habsent⟩ | hapart
        · have hstored : d.storedAt p = .ok i := by
            rw [hworks.storedAt, habsent]
            exact hi
          refine (writeFile_stores hd hworks hnumber habsent _).imp fun r d' hd' ↦ ?_
          cases r with
          | error e => exact hd' ▸ hattends.adjusts mode _
          | ok _ => exact ⟨hd'.1, .inr ⟨rfl, by rw [hd'.2, hstored]; rfl⟩⟩
        · refine (writeFile_apart p hd hapart hnumber _).imp fun r d' hd' ↦ ?_
          cases r with
          | error e => exact hd' ▸ hattends.adjusts mode _
          | ok _ => exact ⟨hd'.1, .inl hd'.2⟩
    · exact hattends.adjusts mode _

theorem adjusts_after_read {c : Prop} [Decidable c] {m : Engine Unit} (h : Attends number p d)
    (hm : ∀ d₁, Attends number p d₁ → Yields m d₁ (Adjusts number mode p d₁)) :
    Yields (if c then read number >>= fun _ ↦ m else m) d (Adjusts number mode p d) := by
  rw [yields_ite]
  split
  · apply (read_spares h).bind
    · intro _ d₁ ⟨hattends, hstored⟩
      exact (hm d₁ hattends).imp fun _ _ h ↦ h.of_eq hstored
    · intro _ d₁ ⟨hattends, hstored⟩
      exact ⟨hattends, .inl hstored⟩
  · exact hm d h

theorem turnToLog_adjusts (h : Attends number p d) (hs : d.session? number = some s) (hfixed : s.fixed = false) :
    Yields (read number >>= fun _ ↦ session number >>= fun s ↦
      if s.log.isNone then setJournal s .wal else pure ()) d (Adjusts number .wal p d) := by
  apply ((read_spares h).and (read_settled h.orderly.wellFormed)).bind
  · intro T d₁ ⟨⟨hattends, hstored⟩, _, hread⟩
    obtain ⟨t, ht, -, hsettled, hsame⟩ := hread T rfl
    obtain ⟨u, hu, hworks⟩ := hattends.session
    obtain rfl : t = u := Option.some.inj (ht.symm.trans hu)
    rw [yields_bind, yields_session, ht]
    dsimp only
    rw [yields_ite]
    split
    next hlog =>
      rw [Option.isNone_iff_eq_none] at hlog
      have ht' : t.WorksOn p d₁ ∧ d₁.logAt? p = none ∨ t.WorksApart d₁ := by
        refine hworks.imp_left fun hworks ↦ ⟨hworks, logAt?_of_absent ?_⟩
        exact (hsettled.unlogged p hworks.place hlog ((hsame s hs).trans hfixed)).1
      exact (setJournal_adjusts hattends.orderly ht ht' .wal).imp fun _ _ h ↦ h.of_eq hstored
    · exact (hattends.adjusts _ _).of_eq hstored
  · intro _ d₁ ⟨⟨hattends, hstored⟩, _⟩
    exact ⟨hattends, .inl hstored⟩

theorem worksOn_free (hs : s.WorksOn p d) :
    ({ s with log := none, index := .missing } : Session).WorksOn p
      (d.setSession { s with log := none, index := .missing }) := ⟨hs.place, hs.file, nofun, nofun⟩

theorem attends_free (hd : d.Orderly) (hs : s.WorksOn p d) (hnumber : d.session? number = some s) :
    Attends number p (d.setSession { s with log := none, index := .missing }) where
  orderly := hd.setSession ⟨(hs.livesOn hd).file, nofun⟩
  session := ⟨_, session?_of_setSession (t := { s with log := none, index := .missing }) hnumber rfl rfl,
    .inl (worksOn_free hs)⟩

theorem turnToFile_adjusts (hd : d.Orderly) (hs : s.WorksOn p d) (hnumber : d.session? number = some s)
    (hlog : s.log = some n) :
    Yields (settleJournal { s with log := none, index := .missing } p >>= fun _ ↦
        setJournal { s with log := none, index := .missing } .delete)
      ((d.setSession { s with log := none, index := .missing }).carryOver s p n) (Adjusts number .delete p d) := by
  have hset := (attends_free hd hs hnumber).orderly
  have hnumber₁ := session?_of_setSession (t := { s with log := none, index := .missing }) hnumber rfl rfl
  have hworks : s.WorksOn p (d.setSession { s with log := none, index := .missing }) :=
    hs.bypasses ⟨rfl, rfl, fun _ _ ↦ rfl⟩
  obtain ⟨hd₂, hsessions₂, hfile₂, hgone₂, hstored₂⟩ := carryOver_stores hset hworks hlog
  have hfree₂ : ({ s with log := none, index := .missing } : Session).WorksOn p
      ((d.setSession { s with log := none, index := .missing }).carryOver s p n) := ⟨hs.place, hfile₂, nofun, nofun⟩
  apply (settleJournal_bypasses hd₂ hfree₂).bind
  · intro _ d₃ ⟨hd₃, hsessions₃, hpast⟩
    have habsent : d₃.logAt? p = none := by
      rw [logAt?, foundAt?, hpast.log, hgone₂]
      rfl
    have hnumber₃ := (session?_congr (hsessions₃.trans hsessions₂) number).trans hnumber₁
    refine (setJournal_adjusts hd₃ hnumber₃ (.inl ⟨hfree₂.bypasses hpast, habsent⟩) .delete).imp ?_
    exact fun _ _ h ↦ h.of_eq (hpast.storedAt.trans hstored₂)
  · intro _ d₃ ⟨hd₃, hsessions₃, hpast⟩
    have hnumber₃ := (session?_congr (hsessions₃.trans hsessions₂) number).trans hnumber₁
    exact ⟨⟨hd₃, _, hnumber₃, .inl (hfree₂.bypasses hpast)⟩, .inl (hpast.storedAt.trans hstored₂)⟩

/-- Turning the journal changes nothing else that is stored, and nothing at all if it fails. -/
theorem turn_adjusts (h : Attends number p d) (mode : JournalMode) :
    Yields (turn number mode) d (Adjusts number mode p d) := by
  obtain ⟨s₀, hs₀, -⟩ := h.session
  unfold turn
  rw [yields_bind, yields_session, hs₀]
  dsimp only
  apply adjusts_after_read h
  intro d₁ h₁
  obtain ⟨s, hs, hworks⟩ := h₁.session
  rw [yields_bind, yields_session, hs]
  dsimp only
  split
  · rw [yields_ite]
    split
    next hcan =>
      simp only [Bool.and_eq_true, Bool.not_eq_true'] at hcan
      exact turnToLog_adjusts h₁ hs hcan.2
    · exact h₁.adjusts _ _
  next q n hplace hlog =>
    rcases hworks with hworks | hapart
    · obtain rfl : p = q := Option.some.inj (hworks.place.symm.trans hplace)
      have hfree := attends_free h₁.orderly hworks hs
      rw [yields_bind, yields_get]
      dsimp only
      rw [yields_ite]
      split
      · exact h₁.adjusts _ _
      · rw [yields_bind, yields_set]
        dsimp only
        rw [yields_ite]
        split
        · exact ⟨hfree, .inl rfl⟩
        · rw [yields_bind, yields_set]
          exact turnToFile_adjusts h₁.orderly hworks hs hlog
    · simp [hapart.log] at hlog
  · exact h₁.adjusts _ _

end Engine

end Gatekeeper
