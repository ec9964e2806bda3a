import Gatekeeper.Proofs.Database.Fresh

namespace Gatekeeper

open Disk Engine

def Database.founded : Database := { versions := some [.integer Database.schemaVersion], keys := some ∅ }

/-- Whether a path is that of a file, and not an address with parts or that of a database in memory. -/
structure Address.IsPlain (path : String) : Prop where
  whole : isComposed path = false
  not_memory : path ≠ memoryPath

/-- Whether an empty file lies at a place under this one name, and nobody has it open. -/
structure Disk.LiesEmpty (d : Disk) (p : Place) (n : Nat) : Prop where
  content : d.content? n = some (.bytes [])
  parent : d.isDirectoryAt p.dropLast = true
  names : ∀ q, d.node? q = some (.file n) → q.text = p.text
  closed : ∀ s ∈ d.sessions, s.file ≠ n

/-- Whether a path leads to a file that is not there yet or is empty, whatever lies beside it. -/
structure Disk.Clear (d : Disk) (path : String) : Prop where
  wellFormed : d.WellFormed
  grounded : d.IsGrounded d.here
  file : ∀ p n, d.databasePlace? path = some p → d.fileAt? p = some n → d.LiesEmpty p n

/-- Whether there is room beside a file for what a journal mode lays there: only a log has an index, which cannot
have the name of a directory. -/
def Disk.HasRoom (d : Disk) (path : String) (m : JournalMode) : Prop :=
  m = .wal → ∀ p ∈ d.databasePlace? path, (Connection.makeParent d path).2.isDirectoryAt (indexOf p) = false

instance (d : Disk) (path : String) (m : JournalMode) : Decidable (d.HasRoom path m) :=
  inferInstanceAs (Decidable (_ → ∀ _ ∈ _, _))

theorem Disk.Clear.atWork {d : Disk} {path : String} (h : d.Clear path) (program : Nat) :
    ({ d with program } : Disk).Clear path where
  wellFormed := ⟨h.wellFormed.named, fun s hs ↦ (h.wellFormed.sessions s hs).mono (Nat.le_refl _)⟩
  grounded := h.grounded
  file := by
    intro p n hp hn
    obtain ⟨hcontent, hparent, hnames, hclosed⟩ := h.file p n (databasePlace?_atWork d program path ▸ hp) hn
    exact ⟨hcontent, hparent, hnames, hclosed⟩

theorem Disk.HasRoom.atWork {d : Disk} {path : String} {m : JournalMode} (h : d.HasRoom path m) (program : Nat) :
    ({ d with program } : Disk).HasRoom path m := by
  intro hm p hp
  rw [makeParent_atWork]
  exact h hm p (databasePlace?_atWork d program path ▸ hp)

theorem Site.Holds.fits {x : Site} {ks : List Nat} {m n : JournalMode} {T : Database} {d : Disk} {path : String}
    (h : x.Holds ks m T d) (hx : x.Fits m) (hleads : x.ways.Leads path x.place) (hroom : d.HasRoom path n) :
    x.Fits n := by
  obtain ⟨-, hmake, hplace⟩ := hleads.again h.lodges.ways h.lodges.node
  refine ⟨hx.parent, hx.short, fun hn ↦ ?_⟩
  have hindex := hroom hn x.place hplace
  rwa [hmake, h.lodges.ways.directory] at hindex

namespace Connection

variable {d d' w : Disk} {s : DatabaseSettings} {c : Connection} {x : Site} {path : String}

theorem databasePlace?_makeParent (d : Disk) (path : String) :
    (makeParent d path).2.databasePlace? path = d.databasePlace? path := by
  obtain ⟨⟨entries, hw⟩, hfiles, -⟩ := makeParent_adds d path
  exact databasePlace?_congr (by rw [hw]) (enginePlace?_congr hfiles _ _)

theorem clear_makeParent (hv : d.Clear path) : (makeParent d path).2.Clear path := by
  obtain ⟨⟨entries, hw⟩, hfiles, hdirectories⟩ := makeParent_adds d path
  have hhere : (makeParent d path).2.here = d.here := by rw [hw]
  have hcontents : (makeParent d path).2.contents = d.contents := by rw [hw]
  have hsessions : (makeParent d path).2.sessions = d.sessions := by rw [hw]
  refine ⟨(makeParent_extends d path).wellFormed hv.wellFormed, ?_, ?_⟩
  · rw [hhere]
    exact fun q hq ↦ hdirectories q (hv.grounded q hq)
  · intro p n hp hn
    have h := hv.file p n (databasePlace?_makeParent d path ▸ hp) ((hfiles p).symm.trans hn)
    refine ⟨?_, hdirectories _ h.parent, ?_, ?_⟩
    · rw [content?, hcontents]
      exact h.content
    · exact fun q hq ↦ h.names q (node?_of_fileAt? ((hfiles q).symm.trans (fileAt?_of_node? hq)))
    · rw [hsessions]
      exact h.closed

theorem clear_of_untouched (h : x.Untouched d) (hleads : x.ways.Leads path x.place)
    (hgrounded : x.ways.IsGrounded x.ways.here) (hparent : x.ways.isDirectoryAt x.place.dropLast = true) :
    d.Clear path := by
  obtain ⟨-, -, hplace⟩ := hleads.again h.ways h.node
  refine ⟨h.wellFormed, ?_, ?_⟩
  · rw [h.ways.here]
    exact fun q hq ↦ (h.ways.directory q).trans (hgrounded q hq)
  · intro p n hp hn
    rw [hplace] at hp
    cases hp
    rw [fileAt?_of_node? h.node] at hn
    cases hn
    refine ⟨h.content, (h.ways.directory _).trans hparent, h.only, ?_⟩
    exact fun s hs hsame ↦ List.not_mem_nil (h.plain s hs hsame).1

theorem untouched_of_openAt? {p : Place} {n : Nat} (hv : w.Clear path)
    (hplace : w.databasePlace? path = some p) (hopen : w.openAt? p = some (n, d')) :
    (⟨w, p, n⟩ : Site).Untouched d' ∧ w.isDirectoryAt p.dropLast = true := by
  unfold openAt? at hopen
  split at hopen
  next m hnode =>
    cases hopen
    have h := hv.file p n hplace (fileAt?_of_node? hnode)
    refine ⟨⟨⟨hv.wellFormed, ⟨rfl, fun _ ↦ rfl⟩, hnode, h.names, nofun, ?_, nofun⟩, h.content⟩, h.parent⟩
    exact fun s hs hsame ↦ absurd hsame (h.closed s hs)
  · cases hopen
  next hnode =>
    split at hopen
    next hcan =>
      cases hopen
      simp only [canCreate, Bool.and_eq_true] at hcan
      exact ⟨Site.untouched_createFile hv.wellFormed hnode, hcan.1⟩
    · cases hopen

theorem parse_cases (hplain : Address.isComposed path = false) :
    Address.parse path = .error .badAddress ∨ Address.parse path = .ok { path } := by
  unfold Address.parse
  split
  · exact .inl rfl
  · rw [if_neg (by simp [hplain])]
    exact .inr rfl

theorem named_of_makeParent (h : makeParent d path = (true, w)) : path ≠ "" := by
  intro hempty
  have hcomponents := (makeParent_eq_true_iff.1 h).1.1
  rw [hempty] at hcomponents
  exact hcomponents rfl

theorem connect_clear (hp : Address.IsPlain path) (hv : w.Clear path) (hnamed : path ≠ "") :
    Yields (Engine.connect path) w fun r d' ↦ match r with
      | .ok k => Site.NamesFile path ∧ ∃ x : Site, x.ways = w ∧ w.databasePlace? path = some x.place ∧
          x.Fresh k d' ∧ w.isDirectoryAt x.place.dropLast = true
      | .error _ => d' = w := by
  rcases parse_cases hp.whole with hparse | hparse
  · unfold Engine.connect
    rw [hparse]
    rfl
  · have hfile : Site.NamesFile path := ⟨hparse, hp.not_memory, hnamed⟩
    rw [Site.yields_connect hfile]
    split
    next p hplace =>
      rw [Site.yields_openFile]
      split
      next n d₁ hopen =>
        obtain ⟨huntouched, hparent⟩ := untouched_of_openAt? hv hplace hopen
        exact ⟨hfile, ⟨w, p, n⟩, rfl, hplace, huntouched.begin path, hparent⟩
      · rfl
    · rfl

theorem prepare_fresh (h : x.Fresh c.session d) :
    match c.prepare d with
    | (.ok _, d') => x.HoldsInFile [c.session] .delete .founded d' ∧
        (journalOf x.place).name.utf8ByteSize ≤ Path.maxComponentBytes
    | (.error e, d') => (∃ fault, e = .engine fault) ∧ ¬ x.Free ∧ x.Fresh c.session d' := by
  have hfounded : Database.prepare {} = .ok (some .founded) := rfl
  cases hread : (Engine.read c.session).run d with
  | mk r d₁ =>
    have h₁ := h.read.of_run hread
    cases r with
    | error e =>
      simp only [prepare, ask, hread]
      exact ⟨⟨e, rfl⟩, h₁⟩
    | ok T =>
      obtain ⟨rfl, h₁, habsent⟩ := h₁
      cases hwrite : (Engine.write c.session (some .founded)).run d₁ with
      | mk r d₂ =>
        have h₂ := (h₁.write habsent .founded).of_run hwrite
        cases r with
        | error e =>
          simp only [prepare, ask, hread, hfounded, conclude, hwrite]
          exact ⟨⟨e, rfl⟩, h₂⟩
        | ok u =>
          simp only [prepare, ask, hread, hfounded, conclude, hwrite]
          exact h₂

theorem prepare_turned {m : JournalMode} (h : x.Turned c.session m d)
    (hparent : x.ways.isDirectoryAt x.place.dropLast = true)
    (hindex : m = .wal → x.ways.isDirectoryAt (indexOf x.place) = false) :
    match c.prepare d with
    | (.ok _, d') => x.Fits m ∧ x.Holds [c.session] m .founded d'
    | (.error e, d') => (∃ fault, e = .engine fault) ∧ ¬ x.Free ∧ x.Fresh c.session d' := by
  cases m with
  | delete =>
    have hprepare := prepare_fresh h
    cases hrun : c.prepare d with
    | mk r d' =>
      rw [hrun] at hprepare
      cases r with
      | error e => exact hprepare
      | ok u => exact ⟨⟨hparent, hprepare.2, nofun⟩, .inFile hprepare.1⟩
  | wal =>
    have hx : x.Fits .wal := ⟨hparent, h.2, hindex⟩
    have hfounded : Database.prepare {} = .ok (some .founded) := rfl
    obtain ⟨d', hprepare, hd'⟩ := prepare_holds (.inFile h.1) hx List.mem_cons_self hfounded
    rw [hprepare]
    exact ⟨hx, hd'⟩

theorem yields_openIndex_of_directory {t : Session} {p : Place} (ht : t.IsPlain x) (hothers : d.othersOn t = [])
    (hindex : d.node? (indexOf p) = some .directory) {Q : Except EngineFault Unit → Disk → Prop} :
    Yields (openIndex t p) d Q ↔ Q (.ok ()) (d.setSession { t with index := .readOnly }) := by
  have hlocking : (t.locking == .exclusive) = false := by simp [ht.locking]
  unfold openIndex
  rw [yields_bind, yields_get]
  simp only [hothers, List.find?_nil, List.any_cons, List.any_nil, hlocking, hindex, Bool.or_self,
    Bool.false_eq_true, if_false, yields_set]

/-- A log whose index is a directory is opened, but cannot be written. -/
theorem openLog_of_directory {m : JournalMode} {T : Database} {s : Session} (h : x.HoldsInFile [s.number] .wal T d)
    (hx : x.Fits m) (hindex : x.ways.isDirectoryAt (indexOf x.place) = true) (hplain : s.IsPlain x) :
    Yields (openLog s x.place) d fun r d' ↦ r = .ok () ∧ ∃ t, d'.session? s.number = some t ∧
      tablesOf d' t = .ok T ∧ t.cannotWrite = true := by
  obtain ⟨g, d₁, hopen, hlogs, -⟩ := h.openAt? hx
  obtain ⟨t, hlog, hnumber, ht, htwrite⟩ : ∃ t : Session, { s with log := some g } = t ∧ t.number = s.number ∧
      t.IsPlain x ∧ ({ t with index := .readOnly } : Session).cannotWrite = true :=
    ⟨_, rfl, rfl, hplain.withLog _ s.index, by simp [Session.cannotWrite]⟩
  have hlogged : t.log = some g := hlog ▸ rfl
  have hnumber' : t.number ∈ [s.number] := List.mem_singleton.2 hnumber
  have hset := hlogs.setSession ht hnumber' hlogged
  have hothers : (d₁.setSession t).othersOn t = [] := by
    rw [List.eq_nil_iff_forall_not_mem]
    intro u hu
    obtain ⟨hu, hfile, hne⟩ := Site.mem_othersOn.1 hu
    have hmem := (hset.plain u hu (hfile.trans ht.file)).1
    exact hne ((List.mem_singleton.1 hmem).trans hnumber.symm)
  have hdirectory : (d₁.setSession t).node? (indexOf x.place) = some .directory := by
    have h := (hset.ways.directory (indexOf x.place)).trans hindex
    simpa [isDirectoryAt] using h
  have hnode : (d.node? x.place).isNone = false := by
    rw [h.node]
    rfl
  have hcan : s.canLog = true := hplain.locksFile
  unfold Engine.openLog
  simp only [yields_bind, yields_ite, yields_throw, yields_needName, yields_get, hcan, hopen, yields_set, hnode, hlog,
    yields_openIndex_of_directory ht hothers hdirectory]
  have hread := hset.setSession (ht.withLog t.log .readOnly) hnumber' hlogged
  obtain ⟨u, hu, -⟩ := hset.found t.number hnumber'
  refine ⟨trivial, { t with index := .readOnly }, ?_, hread.tablesOf (ht.withLog _ _) hlogged, htwrite⟩
  exact hnumber ▸ Site.session?_setSession_self (s := { t with index := .readOnly }) hu

theorem read_of_directory {m : JournalMode} {T : Database} {k : Nat} (h : x.HoldsInFile [k] .wal T d)
    (hx : x.Fits m) (hindex : x.ways.isDirectoryAt (indexOf x.place) = true) :
    Yields (Engine.read k) d fun r d' ↦ r = .ok T ∧ ∃ s, d'.session? k = some s ∧ s.cannotWrite = true := by
  obtain ⟨s, hs, hplain, hlog⟩ := h.session List.mem_cons_self
  obtain rfl := session?_number hs
  rw [Site.yields_read_of_unlogged hs hplain hlog, yields_bind, h.yields_settle hplain, yields_bind,
    Site.yields_settleJournal_of_none h.journal]
  dsimp only
  rw [Site.yields_findLog_wal (Site.contentOf_eq hplain h.content)]
  refine (openLog_of_directory h hx hindex hplain).imp ?_
  rintro r d' ⟨rfl, t, ht, htables, hwrite⟩
  dsimp only
  rw [yields_bind, yields_session, ht]
  exact (yields_visible t).2 ⟨htables, t, ht, hwrite⟩

theorem write_of_cannotWrite {k : Nat} {s : Session} (hs : d.session? k = some s) (h : s.cannotWrite = true)
    (tables? : Option Database) : Yields (Engine.write k tables?) d fun r d' ↦ r = .error .readOnly ∧ d' = d := by
  unfold Engine.write
  rw [yields_bind, yields_session, hs]
  simp only [h, if_true]
  exact ⟨rfl, rfl⟩

theorem fits_of_prepare {m : JournalMode} (h : x.Turned c.session m d)
    (hparent : x.ways.isDirectoryAt x.place.dropLast = true) (hprepare : c.prepare d = (.ok (), d')) :
    x.Fits m ∧ x.Holds [c.session] m .founded d' := by
  cases m with
  | delete =>
    have hfresh := prepare_fresh h
    rw [hprepare] at hfresh
    exact ⟨⟨hparent, hfresh.2, nofun⟩, .inFile hfresh.1⟩
  | wal =>
    cases hindex : x.ways.isDirectoryAt (indexOf x.place) with
    | false =>
      have hturned := prepare_turned (m := .wal) h hparent fun _ ↦ hindex
      rw [hprepare] at hturned
      exact hturned
    | true =>
      -- Nothing could have been written to the log.
      have hx : x.Fits .delete := ⟨hparent, h.2, nofun⟩
      have hfounded : Database.prepare {} = .ok (some .founded) := rfl
      obtain ⟨T, d₁, hread, hrest⟩ := prepare_eq_ok hprepare
      obtain ⟨hT, s, hs, hcannot⟩ := (read_of_directory h.1 hx hindex).of_run hread
      cases hT
      rcases hrest with ⟨hnone, -⟩ | ⟨tables, -, hwrite⟩
      · cases hfounded.symm.trans hnone
      · cases ((write_of_cannotWrite hs hcannot (some tables)).of_run hwrite).1

theorem setUp_fresh (h : x.Fresh c.session d) (hparent : x.ways.isDirectoryAt x.place.dropLast = true)
    (hindex : s.journalMode = .wal → x.ways.isDirectoryAt (indexOf x.place) = false) :
    match c.setUp d s with
    | (.opened c', d') => c' = c ∧ x.Fits s.journalMode ∧ x.Holds [c.session] s.journalMode .founded d'
    | (.refused e, d') => (∃ fault, e = .engine fault) ∧ ¬ x.Free ∧ x.Untouched d'
    | (.breakdown, _) => DatabaseSettings.maxBusyTimeoutMs < s.busyTimeoutMs := by
  have hturned := h.turn s.journalMode
  have hsets := c.setsUp d s
  generalize c.setUp d s = done at hsets ⊢
  cases hsets with
  | unturned hturn =>
    obtain ⟨hfree, huntouched⟩ := hturned.of_run hturn
    exact ⟨⟨_, rfl⟩, hfree, huntouched.leave⟩
  | tooLong _ hwait => exact hwait
  | unprepared hturn hprepare =>
    have hprepared := prepare_turned (hturned.of_run hturn) hparent hindex
    rw [hprepare] at hprepared
    obtain ⟨hfault, hfree, huntouched⟩ := hprepared
    exact ⟨hfault, hfree, huntouched.leave⟩
  | ready hturn _ hprepare =>
    have hprepared := prepare_turned (hturned.of_run hturn) hparent hindex
    rw [hprepare] at hprepared
    exact ⟨rfl, hprepared⟩

/-- A database whose file is not there yet or is empty is opened with its first tables, or it is refused and
its file is left as it was or empty. -/
theorem openDatabase_of_clear (hp : Address.IsPlain s.path) (hv : d.Clear s.path)
    (hroom : d.HasRoom s.path s.journalMode) :
    match openDatabase d s with
    | (.opened c, d') => ∃ x : Site, x.Fits s.journalMode ∧ x.ways.Leads s.path x.place ∧ Site.NamesFile s.path ∧
        x.Holds [c.session] s.journalMode .founded d'
    | (.refused e, d') => (∀ found, e ≠ .version found) ∧ d'.Clear s.path
    | (.breakdown, _) => DatabaseSettings.maxBusyTimeoutMs < s.busyTimeoutMs := by
  have hmade := clear_makeParent hv
  have hplaceMade := databasePlace?_makeParent d s.path
  have hopens := opens d s
  unfold HasRoom at hroom
  generalize openDatabase d s = done at hopens
  cases hopens with
  | badPath => exact ⟨nofun, hv⟩
  | noParent hmake =>
    rw [hmake] at hmade
    exact ⟨nofun, hmade⟩
  | @noFile w d₁ e hmake hrun =>
    rw [hmake] at hmade
    obtain rfl : d₁ = w := (connect_clear hp hmade (named_of_makeParent hmake)).of_run hrun
    exact ⟨nofun, hmade⟩
  | @connected w d₁ k hcheck hmake hrun =>
    rw [hmake] at hmade hroom hplaceMade
    obtain ⟨hfile, x, rfl, hplace, hfresh, hparent⟩ :=
      (connect_clear hp hmade (named_of_makeParent hmake)).of_run hrun
    have hleads := leads_of_makeParent hv.grounded hcheck hmake hplace
    have hset := setUp_fresh (c := ⟨k⟩) (s := s) hfresh hparent fun hm ↦
      hroom hm x.place (hplaceMade.symm.trans hplace)
    cases hdone : setUp ⟨k⟩ d₁ s with
    | mk o d₂ =>
      rw [hdone] at hset
      cases o with
      | opened c =>
        obtain ⟨rfl, hx, hholds⟩ := hset
        exact ⟨x, hx, hleads, hfile, hholds⟩
      | refused e =>
        obtain ⟨⟨fault, rfl⟩, -, huntouched⟩ := hset
        exact ⟨nofun, clear_of_untouched huntouched hleads hmade.grounded hparent⟩
      | breakdown => exact hset

theorem openDatabase_clear (hp : Address.IsPlain s.path) (hv : d.Clear s.path)
    (h : openDatabase d s = (.opened c, d')) :
    ∃ x : Site, x.Fits s.journalMode ∧ x.ways.Leads s.path x.place ∧ Site.NamesFile s.path ∧
      x.Holds [c.session] s.journalMode .founded d' := by
  obtain ⟨w, d₁, d₂, hcheck, hmake, hconnect, hturn, hprepare⟩ := openDatabase_eq_opened h
  have hmade := clear_makeParent hv
  rw [hmake] at hmade
  obtain ⟨hfile, x, rfl, hplace, hfresh, hparent⟩ :=
    (connect_clear hp hmade (named_of_makeParent hmake)).of_run hconnect
  have hturned := (hfresh.turn s.journalMode).of_run hturn
  obtain ⟨hx, hholds⟩ := fits_of_prepare hturned hparent hprepare
  exact ⟨x, hx, leads_of_makeParent hv.grounded hcheck hmake hplace, hfile, hholds⟩

theorem wait_of_openDatabase (h : openDatabase d s = (.opened c, d')) :
    s.busyTimeoutMs ≤ DatabaseSettings.maxBusyTimeoutMs := by
  have hopens := opens d s
  rw [h] at hopens
  generalize hdone : (Opening.opened c, d') = done at hopens
  cases hopens with
  | badPath | noParent | noFile => cases hdone
  | @connected _ d₁ k =>
    have hsets := setsUp ⟨k⟩ d₁ s
    rw [← hdone] at hsets
    cases hsets with
    | ready _ hwait _ => exact hwait

end Connection

theorem Disk.clear_empty : ({} : Disk).Clear "k.db" where
  wellFormed := wellFormed_empty
  grounded := isGrounded_nil _
  file := fun p n _ hn ↦ by
    cases p with
    | nil => cases hn
    | cons => cases hn

end Gatekeeper
