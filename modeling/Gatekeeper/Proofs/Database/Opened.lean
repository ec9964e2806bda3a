import Gatekeeper.Database.Connection
import Gatekeeper.Proofs.Database.Steady

namespace Gatekeeper

open Disk

variable {d d' : Disk} {s : Session} {number : Nat}

namespace Engine

variable {α β : Type}

/-- A step that keeps all files and leaves a well-formed disk so. -/
def Safe (m : Engine α) : Prop := ∀ d, d.WellFormed → Yields m d fun _ d' ↦ d.Extends d'

theorem Safe.bind {m : Engine α} {f : α → Engine β} (hm : Safe m) (hf : ∀ a, Safe (f a)) :
    Safe (m >>= f) := by
  intro d hd
  refine (hm d hd).bind (fun a d' h ↦ ?_) fun _ _ h ↦ h
  exact (hf a d' (h.wellFormed hd)).imp fun _ _ h' ↦ h.trans h'

theorem Safe.ite {c : Prop} [Decidable c] {m n : Engine α} (hm : Safe m) (hn : Safe n) :
    Safe (if c then m else n) := by
  split
  · exact hm
  · exact hn

theorem Safe.before {c : Prop} [Decidable c] {m : Engine α} {n : Engine β} (hm : Safe m) (hn : Safe n) :
    Safe (if c then m >>= fun _ ↦ n else n) := Safe.ite (hm.bind fun _ ↦ hn) hn

theorem safe_pure (a : α) : Safe (pure a) := fun d _ ↦ Extends.refl d

theorem safe_throw (e : EngineFault) : Safe (throw e : Engine α) := fun d _ ↦ Extends.refl d

theorem safe_session_bind {f : Session → Engine α}
    (hf : ∀ d s, d.WellFormed → d.session? number = some s → Yields (f s) d fun _ d' ↦ d.Extends d') :
    Safe (session number >>= f) := by
  intro d hd
  rw [yields_bind, yields_session]
  split
  next s hs => exact hf d s hd hs
  · exact .refl d

theorem safe_image_bind {f : Image → Engine α} (hf : ∀ i, Safe (f i)) : Safe (image s >>= f) := by
  intro d hd
  rw [yields_bind, yields_image]
  split
  · exact hf _ d hd
  · exact .refl d

theorem safe_read (number : Nat) : Safe (read number) := fun _ hd ↦ (read_settled hd).imp fun _ _ h ↦ h.1

theorem safe_writeFile (s : Session) (i : Image) : Safe (writeFile s i) := by
  intro d _
  refine (writeFile_yields s i).imp fun r d' h ↦ ?_
  cases r with
  | error e => exact h ▸ .refl d
  | ok _ =>
    rcases h with rfl | ⟨p, -, rfl⟩
    · exact extends_setContent d _ nofun
    · exact (extends_unlink d _).trans (extends_setContent _ _ nofun)

theorem safe_write (number : Nat) (tables? : Option Database) : Safe (write number tables?) := by
  refine safe_session_bind fun d s hd hs ↦ ?_
  dsimp only
  rw [yields_ite]
  split
  · exact .refl d
  · split
    · exact .refl d
    · exact extends_setContent d _ nofun
    · exact safe_image_bind (fun i ↦ safe_writeFile s _) d hd

theorem safe_setJournal (s : Session) (mode : JournalMode) : Safe (setJournal s mode) := by
  refine safe_image_bind fun i ↦ .ite ?_ (safe_pure _)
  exact .ite (safe_throw _) (safe_writeFile s _)

theorem safe_settleJournal (s : Session) (p : Place) : Safe (settleJournal s p) :=
  fun _ _ ↦ (settleJournal_trimmed s p).imp fun _ _ h ↦ h.1

theorem safe_turn (number : Nat) (mode : JournalMode) : Safe (turn number mode) := by
  refine safe_session_bind fun d s₀ hd _ ↦ Safe.before (safe_read number) ?_ d hd
  refine safe_session_bind fun d s hd hs ↦ ?_
  dsimp only
  split
  · refine Safe.ite ((safe_read number).bind fun _ ↦ safe_session_bind fun d s hd _ ↦ ?_) (safe_pure _) d hd
    exact Safe.ite (safe_setJournal s _) (safe_pure _) d hd
  next p log _ hlog =>
    rw [yields_bind, yields_get]
    dsimp only
    rw [yields_ite]
    split
    · exact .refl d
    · have hfree := extends_setSession d (s := { s with log := none, index := .missing })
        ⟨(hd.livesOn hs).file, nofun⟩
      have hcarry := hfree.trans (extends_carryOver _ s p log)
      rw [yields_bind, yields_set]
      dsimp only
      rw [yields_ite]
      split
      · exact hfree
      · rw [yields_bind, yields_set]
        have hrest := (safe_settleJournal { s with log := none, index := .missing } p).bind
          fun _ ↦ safe_setJournal { s with log := none, index := .missing } .delete
        exact (hrest _ (hcarry.wellFormed hd)).imp fun _ _ h ↦ hcarry.trans h
  · exact .refl d

theorem join_extends (hs : s.LivesOn d) : Yields (join s) d fun _ d' ↦ d.Extends d' :=
  extends_setSession d ⟨hs.file, hs.log⟩

theorem begin_extends (hs : s.LivesOn d) : Yields (begin s) d fun _ d' ↦ d.Extends d' :=
  extends_addSession d hs

theorem named?_mem {name : Option String} (h : named? d name = some s) : s ∈ d.sessions := by
  obtain ⟨n, -, h⟩ := Option.bind_eq_some_iff.1 h
  exact List.mem_of_find?_eq_some h

theorem livesOn_newSession (a : Address) {file : Nat} (place : Option Place) (name : Option String)
    (h : file < d.contents.length) : (newSession a file place name).LivesOn d :=
  ⟨h, nofun⟩

theorem safe_openHidden (a : Address) : Safe (openHidden a) := by
  intro d hd
  unfold openHidden
  rw [yields_bind, yields_get]
  dsimp only
  split
  next s hs =>
    have hlives := hd.sessions s (named?_mem hs)
    rw [yields_ite]
    split
    · exact join_extends hlives
    · exact begin_extends (livesOn_newSession a _ _ hlives.file)
  · rw [yields_bind, yields_set]
    have hl := length_addContent d (.bytes [])
    have hlt : (d.addContent (.bytes [])).1 < (d.addContent (.bytes [])).2.contents.length := by
      rw [hl]
      exact Nat.lt_succ_self _
    exact (begin_extends (livesOn_newSession a _ _ hlt)).imp fun _ _ h ↦
      (extends_addContent d fun _ h ↦ (Content.bytes.inj h).symm).trans h

theorem safe_openFile (a : Address) (p : Place) : Safe (openFile a p) := by
  intro d hd
  unfold openFile
  rw [yields_bind, yields_get]
  dsimp only
  split
  next s hs => exact join_extends (hd.sessions s (named?_mem hs))
  · split
    · exact .refl d
    next file d₁ hopen =>
      have h : d.Extends d₁ ∧ file < d₁.contents.length := by
        split at hopen
        · exact (extends_openAt? hopen).imp_right fun h ↦ h hd
        · obtain ⟨n, hn, h⟩ := Option.map_eq_some_iff.1 hopen
          cases h
          exact ⟨.refl d, hd.lt_of_node? (node?_of_fileAt? hn)⟩
      rw [yields_bind, yields_set]
      exact (begin_extends (livesOn_newSession a _ _ h.2)).imp fun _ _ h' ↦ h.1.trans h'

theorem safe_connect (path : String) : Safe (connect path) := by
  intro d hd
  unfold connect
  split
  · exact .refl d
  next a _ =>
    rw [yields_ite]
    split
    · exact safe_openHidden a d hd
    · rw [yields_bind, yields_get]
      dsimp only
      split
      · exact .refl d
      · exact safe_openFile a _ d hd

end Engine

theorem Disk.extends_leave (d : Disk) (number : Nat) : d.Extends (d.leave number) := by
  unfold leave
  split
  · exact .refl d
  next s hs =>
    split
    · refine ⟨Nat.le_refl _, fun hd ↦ ?_, fun _ _ ↦ .inr⟩
      exact (extends_setSession d (s := { s with users := s.users - 1 })
        ⟨(hd.livesOn hs).file, (hd.livesOn hs).log⟩).wellFormed hd
    · have hrest := extends_filterSessions d fun t ↦ t.number ≠ number
      dsimp only
      split
      · split
        · exact hrest
        · exact hrest.trans (extends_carryOver _ s _ _)
      · exact hrest

namespace Connection

theorem conclude_extends {α : Type} (c : Connection)
    (x : Except DatabaseError (α × Option Database)) (hd : d.WellFormed) : d.Extends (c.conclude d x).2 := by
  unfold conclude
  split
  · exact .refl d
  next a tables? =>
    have h := Engine.safe_write c.session tables? d hd
    unfold Engine.Yields at h
    split <;> simp_all

theorem ask_extends {α : Type} (c : Connection) (f : Database → Except DatabaseError α)
    (hd : d.WellFormed) : d.Extends (c.ask d f).2 := by
  have h := Engine.safe_read c.session d hd
  unfold Engine.Yields at h
  unfold ask
  split <;> simp_all

theorem prepare_extends (c : Connection) (hd : d.WellFormed) : d.Extends (c.prepare d).2 := by
  have h := c.ask_extends Database.prepare hd
  unfold prepare
  split
  next hask => rwa [hask] at h
  next hask => rwa [hask] at h
  next hask =>
    rw [hask] at h
    exact h.trans (c.conclude_extends _ (h.wellFormed hd))

theorem prepare_eq_ok {c : Connection} (h : c.prepare d = (.ok (), d')) :
    ∃ T d₁, (Engine.read c.session).run d = (.ok T, d₁) ∧
      (Database.prepare T = .ok none ∧ d' = d₁ ∨
        ∃ tables, Database.prepare T = .ok (some tables) ∧
          (Engine.write c.session (some tables)).run d₁ = (.ok (), d')) := by
  unfold prepare ask at h
  rcases hread : (Engine.read c.session).run d with ⟨_ | T, d₁⟩
  · rw [hread] at h
    cases h
  · rw [hread] at h
    refine ⟨T, d₁, rfl, ?_⟩
    cases hprepare : T.prepare with
    | error e => simp [hprepare] at h
    | ok tables? =>
      cases tables? with
      | none =>
        simp only [hprepare, Prod.mk.injEq, true_and] at h
        exact .inl ⟨rfl, h.symm⟩
      | some tables =>
        simp only [hprepare, conclude] at h
        rcases hwrite : (Engine.write c.session (some tables)).run d₁ with ⟨_ | _, d₂⟩
        · rw [hwrite] at h
          cases h
        · rw [hwrite] at h
          cases h
          exact .inr ⟨tables, rfl, hwrite⟩

inductive SetsUp (c : Connection) (d : Disk) (settings : DatabaseSettings) : Opening × Disk → Prop
  | unturned {e : EngineFault} {d₁ : Disk} : (Engine.turn c.session settings.journalMode).run d = (.error e, d₁) →
    SetsUp c d settings (.refused (.engine e), c.close d₁)
  | tooLong {d₁ : Disk} : (Engine.turn c.session settings.journalMode).run d = (.ok (), d₁) →
    DatabaseSettings.maxBusyTimeoutMs < settings.busyTimeoutMs → SetsUp c d settings (.breakdown, c.close d₁)
  | unprepared {e : DatabaseError} {d₁ d₂ : Disk} :
    (Engine.turn c.session settings.journalMode).run d = (.ok (), d₁) → c.prepare d₁ = (.error e, d₂) →
    SetsUp c d settings (.refused e, c.close d₂)
  | ready {d₁ d₂ : Disk} : (Engine.turn c.session settings.journalMode).run d = (.ok (), d₁) →
    settings.busyTimeoutMs ≤ DatabaseSettings.maxBusyTimeoutMs → c.prepare d₁ = (.ok (), d₂) →
    SetsUp c d settings (.opened c, d₂)

theorem setsUp (c : Connection) (d : Disk) (settings : DatabaseSettings) :
    SetsUp c d settings (c.setUp d settings) := by
  unfold setUp
  split
  next hturn => exact .unturned hturn
  next hturn =>
    split
    next hwait => exact .tooLong hturn hwait
    next hwait =>
      split
      next hprepare => exact .unprepared hturn hprepare
      next hprepare => exact .ready hturn (Nat.not_lt.1 hwait) hprepare

theorem setUp_extends (c : Connection) (settings : DatabaseSettings) (hd : d.WellFormed) :
    d.Extends (c.setUp d settings).2 := by
  have hturned {r : Except EngineFault Unit} {d₁ : Disk}
      (hrun : (Engine.turn c.session settings.journalMode).run d = (r, d₁)) : d.Extends d₁ :=
    (Engine.safe_turn c.session settings.journalMode d hd).of_run hrun
  have hprepared {r : Except DatabaseError Unit} {d₁ d₂ : Disk} (hext : d.Extends d₁)
      (hprepare : c.prepare d₁ = (r, d₂)) : d.Extends d₂ := by
    have hthen := c.prepare_extends (hext.wellFormed hd)
    rw [hprepare] at hthen
    exact hext.trans hthen
  have hsets := c.setsUp d settings
  generalize c.setUp d settings = done at hsets ⊢
  cases hsets with
  | unturned hturn => exact (hturned hturn).trans (extends_leave _ _)
  | tooLong hturn _ => exact (hturned hturn).trans (extends_leave _ _)
  | unprepared hturn hprepare => exact (hprepared (hturned hturn) hprepare).trans (extends_leave _ _)
  | ready hturn _ hprepare => exact hprepared (hturned hturn) hprepare

theorem makeParent_extends (d : Disk) (path : String) : d.Extends (makeParent d path).2 := by
  unfold makeParent
  dsimp only
  split
  · exact .refl d
  · exact extends_makeDirectories d _

/-- How far an opening gets. -/
inductive Opens (d : Disk) (settings : DatabaseSettings) : Opening × Disk → Prop
  | badPath {e : BadInput} : checkPath d settings.path = .error e → Opens d settings (.refused (.invalid e), d)
  | noParent {w : Disk} : makeParent d settings.path = (false, w) →
    Opens d settings (.refused (.noDirectory "store path missing parent directory"), w)
  | noFile {w d₁ : Disk} {e : EngineFault} : makeParent d settings.path = (true, w) →
    (Engine.connect settings.path).run w = (.error e, d₁) → Opens d settings (.refused (.engine e), d₁)
  | connected {w d₁ : Disk} {k : Nat} : checkPath d settings.path = .ok () →
    makeParent d settings.path = (true, w) → (Engine.connect settings.path).run w = (.ok k, d₁) →
    Opens d settings (setUp ⟨k⟩ d₁ settings)

theorem opens (d : Disk) (settings : DatabaseSettings) : Opens d settings (openDatabase d settings) := by
  unfold openDatabase
  cases hcheck : checkPath d settings.path with
  | error e => exact .badPath hcheck
  | ok u =>
    cases hmake : makeParent d settings.path with
    | mk made w =>
      cases made with
      | false => exact .noParent hmake
      | true =>
        cases hconnect : (Engine.connect settings.path).run w with
        | mk r d₁ =>
          cases r with
          | error e =>
            simp only [hconnect]
            exact .noFile hmake hconnect
          | ok k =>
            simp only [hconnect]
            exact .connected hcheck hmake hconnect

theorem Opens.extends {settings : DatabaseSettings} {done : Opening × Disk} (h : Opens d settings done)
    (hd : d.WellFormed) : d.Extends done.2 := by
  have hparent := makeParent_extends d settings.path
  have hconnect (w : Disk) (hext : d.Extends w) : d.Extends ((Engine.connect settings.path).run w).2 :=
    hext.trans (Engine.safe_connect settings.path w (hext.wellFormed hd))
  cases h with
  | badPath => exact .refl d
  | noParent hmake =>
    rw [hmake] at hparent
    exact hparent
  | @noFile w _ _ hmake hrun =>
    rw [hmake] at hparent
    have hext := hconnect w hparent
    rw [hrun] at hext
    exact hext
  | @connected w _ _ _ hmake hrun =>
    rw [hmake] at hparent
    have hext := hconnect w hparent
    rw [hrun] at hext
    exact hext.trans (setUp_extends _ settings (hext.wellFormed hd))

theorem openDatabase_extends (settings : DatabaseSettings) (hd : d.WellFormed) :
    d.Extends (openDatabase d settings).2 := (opens d settings).extends hd

theorem openDatabase_eq_opened {settings : DatabaseSettings} {c : Connection}
    (h : openDatabase d settings = (.opened c, d')) :
    ∃ w d₁ d₂, checkPath d settings.path = .ok () ∧ makeParent d settings.path = (true, w) ∧
      (Engine.connect settings.path).run w = (.ok c.session, d₁) ∧
      (Engine.turn c.session settings.journalMode).run d₁ = (.ok (), d₂) ∧ c.prepare d₂ = (.ok (), d') := by
  have hopens := opens d settings
  rw [h] at hopens
  generalize hdone : (Opening.opened c, d') = done at hopens
  cases hopens with
  | badPath | noParent | noFile => cases hdone
  | @connected w d₁ k hcheck hmake hconnect =>
    have hsets := setsUp ⟨k⟩ d₁ settings
    rw [← hdone] at hsets
    cases hsets with
    | @ready d₂ _ hturn _ hprepare => exact ⟨w, d₁, d₂, hcheck, hmake, hconnect, hturn, hprepare⟩

end Connection

end Gatekeeper
