import Gatekeeper.Proofs.Database.Holds

namespace Gatekeeper

open Disk Engine

namespace Site

variable {x : Site} {d d' : Disk} {s t : Session} {ks : List Nat} {k g : Nat} {m m' : JournalMode}
  {T T' : Database} {path : String}

theorem Logs.carryOver (h : x.Logs ks g T d) (hs : s.IsPlain x)
    (hunlogged : ∀ t ∈ d.sessions, t.file = x.file → t.log = none ∧ t.index = .missing) :
    x.HoldsInFile ks .wal T (d.carryOver s x.place g) := by
  obtain ⟨T₀, hfile, htables⟩ := h.content
  have hcarried : ∃ d₁, d.carryOver s x.place g = (d₁.unlink (logOf x.place)).unlink (indexOf x.place) ∧
      x.Lodges ks d₁ ∧ d₁.content? x.file = some (.image ⟨.wal, T⟩) ∧
      d₁.entries = d.entries ∧ d₁.sessions = d.sessions := by
    have hlocking : (s.locking == .exclusive) = false := by simp [hs.locking]
    unfold Disk.carryOver
    rw [hlocking]
    split
    next T' hlog =>
      rw [hlog] at htables
      obtain rfl : T' = T := htables
      refine ⟨_, rfl, h.toLodges.setContent _ _, ?_, rfl, rfl⟩
      rw [hs.file, content?_setContent _ _ h.lt_file, hfile]
      rfl
    next hlog =>
      refine ⟨d, rfl, h.toLodges, ?_, rfl, rfl⟩
      rw [logged_of_ne (fun T' hT' ↦ hlog T' hT')] at htables
      rw [hfile, htables]
  obtain ⟨d₁, hd₁, hlodges, hcontent, hentries, hsessions⟩ := hcarried
  have hnode : d₁.node? = d.node? := by
    funext q
    rw [node?, node?, hentries]
  rw [hd₁]
  refine ⟨(hlodges.unlink h.text_log).unlink h.text_index, ?_, ?_, ?_, ?_⟩
  · rw [node?_unlink_of_ne (text_journalOf_ne_indexOf _), node?_unlink_of_ne (text_journalOf_ne_logOf _), hnode]
    exact h.journal
  · simpa [content?] using hcontent
  · refine isPresent_unlink (isPresent_unlink_self ?_)
    rw [isDirectoryAt, hnode, h.log]
    rfl
  · intro t ht
    rw [sessions_unlink, sessions_unlink, hsessions] at ht
    exact hunlogged t ht

theorem mem_without : t ∈ (without d k).sessions ↔ t ∈ d.sessions ∧ t.number ≠ k := by
  simp [without]

theorem Lodges.leave_eq (h : x.Lodges ks d) (hs : d.session? k = some s) (hplain : s.IsPlain x) :
    d.leave k = match s.log with
      | some log =>
        if s.index != .writable || d.logIsShared s then Site.without d k
        else (Site.without d k).carryOver s x.place log
      | none => Site.without d k := by
  unfold Disk.leave
  simp only [hs, hplain.users, hplain.place, hplain.readOnly, Nat.lt_irrefl, if_false, Bool.false_or]
  cases s.log with
  | none => rfl
  | some log =>
    simp only [h.hasMoved hplain, Bool.or_false]
    rfl

theorem Holds.leave (h : x.Holds ks m T d) (hk : k ∈ ks) : x.Holds (ks.filter (· ≠ k)) m T (d.leave k) := by
  obtain ⟨s, hs, hplain⟩ := h.lodges.found k hk
  obtain rfl := session?_number hs
  have hrest := h.lodges.without s.number
  rw [h.lodges.leave_eq hs hplain]
  cases h with
  | inFile h =>
    have hlog := (h.unlogged s (session?_mem hs) hplain.file).1
    rw [hlog]
    exact .inFile ⟨hrest, h.journal, h.content, h.absent, fun t ht ↦ h.unlogged t (mem_without.1 ht).1⟩
  | @inLog g _ _ h =>
    have hlogs : x.Logs (ks.filter (· ≠ s.number)) g T (without d s.number) :=
      ⟨hrest, h.journal, h.log, h.content⟩
    have hshared : ∀ t ∈ (without d s.number).sessions, t.file = x.file →
        t.log = none ∧ t.index = .missing ∨ t.log = some g ∧ t.index = .writable :=
      fun t ht ↦ h.shared t (mem_without.1 ht).1
    rcases h.shared s (session?_mem hs) hplain.file with ⟨hlog, -⟩ | ⟨hlog, hindex⟩
    -- Whoever held on to the log still does.
    · obtain ⟨t, ht, hfile, htlog⟩ := h.held
      rw [hlog]
      refine .inLog ⟨hlogs, hshared, t, mem_without.2 ⟨ht, fun hnumber ↦ ?_⟩, hfile, htlog⟩
      rw [h.eq_of_number hs ht hfile hnumber, hlog] at htlog
      cases htlog
    · simp only [hlog, hindex, bne_self_eq_false, Bool.false_or]
      split
      next hothers =>
        obtain ⟨t, ht, htlog⟩ := List.any_eq_true.1 hothers
        obtain ⟨ht, hfile, hnumber⟩ := mem_othersOn.1 ht
        exact .inLog ⟨hlogs, hshared, t, mem_without.2 ⟨ht, hnumber⟩, hfile.trans hplain.file, htlog⟩
      next hothers =>
        -- The last of them to leave carries the log over.
        refine .inFile (hlogs.carryOver hplain fun t ht hfile ↦ ?_)
        rcases hshared t ht hfile with hnone | ⟨htlog, -⟩
        · exact hnone
        · obtain ⟨ht, hnumber⟩ := mem_without.1 ht
          exact absurd (List.any_eq_true.2 ⟨t, mem_othersOn.2 ⟨ht, hfile.trans hplain.file.symm, hnumber⟩,
            by simp [htlog]⟩) hothers

theorem HoldsInFile.setJournal {n : JournalMode} (h : x.HoldsInFile ks m T d) (hx : x.Fits n) (hs : s.IsPlain x) :
    Yields (Engine.setJournal s m') d fun r d' ↦ r = .ok () ∧ x.HoldsInFile ks m' T d' := by
  unfold Engine.setJournal
  rw [yields_bind, yields_image, contentOf_eq hs h.content]
  simp only [Content.image?, yields_ite, hs.readOnly, Bool.false_eq_true, if_false, yields_pure]
  split
  · exact h.writeFile hx hs _
  next heq =>
    obtain rfl : m = m' := by simpa using heq
    exact ⟨trivial, h⟩

theorem HoldsInLog.giveUp (h : x.HoldsInLog ks g T d) (hx : x.Fits m) (hs : s.IsPlain x) (hk : k ∈ ks)
    (hnumber : s.number = k)
    (hothers : ∀ t ∈ d.sessions, t.file = x.file → t.number ≠ s.number → t.log = none ∧ t.index = .missing)
    {free : Session} (hfree : free.IsPlain x) (hsame : free.number = s.number) (hlog : free.log = none)
    (hindex : free.index = .missing) :
    Yields (settleJournal free x.place >>= fun _ ↦ Engine.setJournal free .delete)
      ((d.setSession free).carryOver s x.place g) fun r d' ↦ r = .ok () ∧ x.Holds ks .delete T d' := by
  have hset : x.Logs ks g T (d.setSession free) :=
    ⟨h.toLodges.setSession hfree (hsame ▸ hnumber ▸ hk) (by simp [hlog]), h.journal, h.log, h.content⟩
  have hcarried : x.HoldsInFile ks .wal T ((d.setSession free).carryOver s x.place g) := by
    apply hset.carryOver hs
    intro t ht hfile
    obtain ⟨u, hu, rfl⟩ := List.mem_map.1 ht
    by_cases hu' : u.number = free.number
    · rw [if_pos hu']
      exact ⟨hlog, hindex⟩
    · rw [if_neg hu'] at hfile ⊢
      exact hothers u hu hfile (hsame ▸ hu')
  rw [yields_bind, yields_settleJournal_of_none hcarried.journal]
  exact (hcarried.setJournal hx hfree).imp fun _ _ ⟨hr, hd⟩ ↦ ⟨hr, .inFile hd⟩

theorem HoldsInLog.index (h : x.HoldsInLog ks g T d) (hs : s ∈ d.sessions) (hplain : s.IsPlain x)
    (hlog : s.log = some g) : s.index = .writable := by
  rcases h.shared s hs hplain.file with ⟨hnone, -⟩ | ⟨-, hindex⟩
  · simp [hlog] at hnone
  · exact hindex

theorem HoldsInLog.other_of_contended (h : x.HoldsInLog ks g T d) (hplain : s.IsPlain x)
    (hcontended : d.isContended s = true) : ∃ j ∈ ks, j ≠ s.number := by
  obtain ⟨t, ht, -⟩ := List.any_eq_true.1 (Bool.and_eq_true_iff.1 hcontended).2
  obtain ⟨ht, hfile, hnumber⟩ := mem_othersOn.1 ht
  exact ⟨t.number, (h.plain t ht (hfile.trans hplain.file)).1, hnumber⟩

theorem HoldsInLog.alone_of_not_contended (h : x.HoldsInLog ks g T d) (hplain : s.IsPlain x)
    (hcontended : ¬ d.isContended s = true) {t : Session} (ht : t ∈ d.sessions) (hfile : t.file = x.file)
    (hnumber : t.number ≠ s.number) : t.log = none ∧ t.index = .missing := by
  rcases h.shared t ht hfile with hnone | ⟨htlog, -⟩
  · exact hnone
  · have hshared : d.logIsShared s = true := List.any_eq_true.2
      ⟨t, mem_othersOn.2 ⟨ht, hfile.trans hplain.file.symm, hnumber⟩, by simp [htlog]⟩
    exact absurd (by rw [isContended, hplain.locksFile, hshared]; rfl) hcontended

theorem Holds.turn_cases (h : x.Holds ks m T d) (hx : x.Fits m) (hk : k ∈ ks) (m' : JournalMode) :
    Yields (Engine.turn k m') d fun r d' ↦ r = .ok () ∧ x.Holds ks m' T d' ∨
      r = .error .locked ∧ (m = .wal ∧ m' = .delete ∧ ∃ j ∈ ks, j ≠ k) ∧ x.Holds ks m T d' := by
  obtain ⟨s₀, hs₀, hplain₀⟩ := h.lodges.found k hk
  unfold Engine.turn
  rw [yields_bind, yields_session, hs₀]
  simp only [hplain₀.users, Nat.le_refl, if_true]
  -- Turning begins by reading, after which the session has found the log if there is one.
  refine (h.read hx hk).bind ?_ (by rintro e d' ⟨h, -⟩; cases h)
  intro _ d₁ ⟨_, hready⟩
  cases hready with
  | inFile h =>
    obtain ⟨s, hs, hplain, hlog⟩ := h.session hk
    rw [yields_bind, yields_session, hs]
    cases m' with
    | delete =>
      simp only [hplain.place, hlog]
      exact .inl ⟨rfl, .inFile h⟩
    | wal =>
      have hcan : s.canLog = true := hplain.locksFile
      simp only [hplain.place, hlog, hcan, hplain.fixed, Bool.not_false, Bool.and_self, if_true]
      refine (h.read hk).bind ?_ (by rintro e d' ⟨h, -⟩; cases h)
      intro _ d₂ ⟨_, hready⟩
      cases hready with
      | inFile h =>
        obtain ⟨s, hs, hplain, hlog⟩ := h.session hk
        rw [yields_bind, yields_session, hs]
        simp only [hlog, Option.isNone_none, if_true]
        exact (h.setJournal hx hplain).imp fun _ _ ⟨hr, hd⟩ ↦ .inl ⟨hr, .inFile hd⟩
  | @inLog g _ _ h hs =>
    obtain ⟨s, hs, hlog⟩ := hs
    have hplain := h.of_session? hk hs
    rw [yields_bind, yields_session, hs]
    cases m' with
    | wal =>
      simp only [hplain.place, hlog]
      exact .inl ⟨rfl, .inLog h⟩
    | delete =>
      simp only [hplain.place, hlog, hplain.readOnly, Bool.false_or, yields_bind, yields_get, yields_ite,
        yields_throw]
      split
      next hcontended =>
        obtain ⟨j, hj, hnumber⟩ := h.other_of_contended hplain hcontended
        rw [session?_number hs] at hnumber
        exact .inr ⟨trivial, ⟨trivial, trivial, j, hj, hnumber⟩, .inLog h⟩
      next hcontended =>
        have hindex := h.index (session?_mem hs) hplain hlog
        have hfree := hplain.withLog none .missing
        simp only [hplain.readOnly] at hfree
        simp only [hindex, Bool.false_eq_true, if_false, bne_self_eq_false, yields_set]
        rw [hplain.place] at hfree
        have hgiven := h.giveUp hx hplain hk (session?_number hs)
          (fun _ ht ↦ h.alone_of_not_contended hplain hcontended ht) hfree rfl rfl rfl
        exact (yields_bind _ _).1 (hgiven.imp fun _ _ hd ↦ .inl hd)

theorem Holds.addSession (h : x.Holds ks m T d) (hs : s.IsPlain x) (hlog : s.log = none)
    (hindex : s.index = .missing) : x.Holds (d.opened :: ks) m T (d.addSession s).2 := by
  have hlodges := h.lodges.addSession hs hlog
  cases h with
  | inFile h =>
    refine .inFile ⟨hlodges, h.journal, h.content, h.absent, fun t ht hfile ↦ ?_⟩
    rcases List.mem_cons.1 ht with rfl | ht
    · exact ⟨hlog, hindex⟩
    · exact h.unlogged t ht hfile
  | inLog h =>
    refine .inLog ⟨⟨hlodges, h.journal, h.log, h.content⟩, fun t ht hfile ↦ ?_, ?_⟩
    · rcases List.mem_cons.1 ht with rfl | ht
      · exact .inl ⟨hlog, hindex⟩
      · exact h.shared t ht hfile
    · obtain ⟨t, ht, hfile, htlog⟩ := h.held
      exact ⟨t, List.mem_cons_of_mem _ ht, hfile, htlog⟩

structure NamesFile (path : String) : Prop where
  parse : Address.parse path = .ok { path }
  not_memory : path ≠ Address.memoryPath
  not_empty : path ≠ ""

theorem isPlain_newSession (path : String) (x : Site) :
    (newSession { path } x.file (some x.place) none).IsPlain x := ⟨rfl, rfl, rfl, rfl, rfl, rfl, rfl⟩

theorem yields_openFile {p : Place} {Q : Except EngineFault Nat → Disk → Prop} :
    Yields (openFile { path } p) d Q ↔ match d.openAt? p with
      | some (file, d') => Q (.ok d'.opened) (d'.addSession (newSession { path } file (some p) none)).2
      | none => Q (.error .cannotOpen) d := by
  have hname : sharedName { path } p.text = none := by
    simp [sharedName]
  unfold openFile
  rw [yields_bind, yields_get, hname]
  simp only [named?, Option.bind_none]
  cases d.openAt? p <;> rfl

theorem yields_connect (h : NamesFile path) {Q : Except EngineFault Nat → Disk → Prop} :
    Yields (connect path) d Q ↔ match d.databasePlace? path with
      | some p => Yields (openFile { path } p) d Q
      | none => Q (.error .cannotOpen) d := by
  have hmemory : (path == Address.memoryPath) = false := by simpa using h.not_memory
  have hempty : path.isEmpty = false := by simpa using h.not_empty
  unfold connect
  rw [h.parse]
  simp only [Address.isInMemory, hmemory, hempty]
  rw [if_neg (by decide), yields_bind, yields_get]
  dsimp only
  cases d.databasePlace? path <;> rfl

theorem Holds.connect (h : x.Holds ks m T d) (hfile : NamesFile path)
    (hplace : d.databasePlace? path = some x.place) :
    Yields (Engine.connect path) d fun r d' ↦ r = .ok d.opened ∧ x.Holds (d.opened :: ks) m T d' := by
  have hopen : d.openAt? x.place = some (x.file, d) := by simp only [openAt?, h.lodges.node]
  rw [yields_connect hfile, hplace]
  dsimp only
  rw [yields_openFile, hopen]
  exact ⟨rfl, h.addSession (isPlain_newSession path x) rfl rfl⟩

theorem Lodges.atWork (h : x.Lodges ks d) (program : Nat) : x.Lodges ks { d with program } where
  wellFormed := ⟨h.wellFormed.named, fun s hs ↦ (h.wellFormed.sessions s hs).mono (Nat.le_refl _)⟩
  ways := ⟨h.ways.here, h.ways.directory⟩
  node := h.node
  only := h.only
  found := h.found
  plain := h.plain
  below := h.below

theorem Holds.atWork (h : x.Holds ks m T d) (program : Nat) : x.Holds ks m T { d with program } := by
  cases h with
  | inFile h => exact .inFile ⟨h.toLodges.atWork program, h.journal, h.content, h.absent, h.unlogged⟩
  | inLog h =>
    exact .inLog ⟨⟨h.toLodges.atWork program, h.journal, h.log, h.content⟩, h.shared, h.held⟩

end Site

namespace Connection

variable {x : Site} {d d' : Disk} {ks : List Nat} {m : JournalMode} {T : Database} {path : String}
  {c : Connection} {k : Nat} {α : Type}

theorem exists_run {e : Engine α} {a : α} {P : Disk → Prop}
    (h : Yields e d fun r d' ↦ r = .ok a ∧ P d') : ∃ d', e.run d = (.ok a, d') ∧ P d' :=
  ⟨_, Prod.ext h.1 rfl, h.2⟩

theorem ask_holds (h : x.Holds ks m T d) (hx : x.Fits m) (hc : c.session ∈ ks)
    (f : Database → Except DatabaseError α) :
    ∃ d', c.ask d f = (f T, d') ∧ x.Ready ks c.session m T d' := by
  obtain ⟨d', hr, hready⟩ := exists_run (h.read hx hc)
  exact ⟨d', by rw [ask, hr], hready⟩

theorem conclude_ready (h : x.Ready ks c.session m T d) (hx : x.Fits m) (hc : c.session ∈ ks)
    (a : α) (tables? : Option Database) :
    ∃ d', c.conclude d (.ok (a, tables?)) = (.ok a, d') ∧ x.Holds ks m (tables?.getD T) d' := by
  cases tables? with
  | none =>
    obtain ⟨d', hwrite, rfl⟩ := exists_run (h.write_nothing hc)
    exact ⟨d', by rw [conclude, hwrite], h.holds⟩
  | some T' =>
    obtain ⟨d', hwrite, hd'⟩ := exists_run (h.write hx hc T')
    exact ⟨d', by rw [conclude, hwrite], hd'⟩

theorem run_holds (h : x.Holds ks m T d) (hx : x.Fits m) (hc : c.session ∈ ks) {f : Transaction α} {a : α}
    {tables? : Option Database} (hf : f T = .ok (a, tables?)) :
    ∃ d', c.run d f = (.ok a, d') ∧ x.Holds ks m (tables?.getD T) d' := by
  obtain ⟨d₁, hr, hready⟩ := exists_run (h.read hx hc)
  obtain ⟨d', hd', hholds⟩ := conclude_ready hready hx hc a tables?
  exact ⟨d', by simp only [run, hr, hf, hd'], hholds⟩

theorem run_holds_of_error (h : x.Holds ks m T d) (hx : x.Fits m) (hc : c.session ∈ ks) {f : Transaction α}
    {e : DatabaseError} (hf : f T = .error e) : ∃ d', c.run d f = (.error e, d') ∧ x.Holds ks m T d' := by
  obtain ⟨d₁, hr, hready⟩ := exists_run (h.read hx hc)
  exact ⟨d₁, by simp only [run, hr, hf, conclude], hready.holds⟩

theorem lookup_holds (h : x.Holds ks m T d) (hx : x.Fits m) (hc : c.session ∈ ks) (i : Identity) :
    ∃ d', c.lookup d i = (T.lookup i, d') ∧ x.Holds ks m T d' := by
  obtain ⟨d', hr, hready⟩ := exists_run (h.read hx hc)
  exact ⟨d', by simp only [lookup, hr], hready.holds⟩

theorem prepare_holds (h : x.Holds ks m T d) (hx : x.Fits m) (hc : c.session ∈ ks) {tables? : Option Database}
    (hT : T.prepare = .ok tables?) :
    ∃ d', c.prepare d = (.ok (), d') ∧ x.Holds ks m (tables?.getD T) d' := by
  obtain ⟨d₁, hask, hready⟩ := ask_holds h hx hc Database.prepare
  cases tables? with
  | none => exact ⟨d₁, by simp only [prepare, hask, hT], hready.holds⟩
  | some tables =>
    obtain ⟨d', hd', hholds⟩ := conclude_ready hready hx hc () (some tables)
    exact ⟨d', by simp only [prepare, hask, hT, hd'], hholds⟩

theorem prepare_holds_of_error (h : x.Holds ks m T d) (hx : x.Fits m) (hc : c.session ∈ ks) {e : DatabaseError}
    (hT : T.prepare = .error e) : ∃ d', c.prepare d = (.error e, d') ∧ x.Holds ks m T d' := by
  obtain ⟨d', hask, hready⟩ := ask_holds h hx hc Database.prepare
  exact ⟨d', by simp only [prepare, hask, hT], hready.holds⟩

theorem holds_of_close (h : x.Holds (k :: ks) m T d) (hnew : k ∉ ks) : x.Holds ks m T (close ⟨k⟩ d) := by
  have hrest : (k :: ks).filter (· ≠ k) = ks := by
    rw [List.filter_cons_of_neg (by simp), List.filter_eq_self]
    intro j hj
    simpa using fun (hjk : j = k) ↦ hnew (hjk ▸ hj)
  have hleft := h.leave List.mem_cons_self
  rwa [hrest] at hleft

/-- A database that holds tables is opened and its tables made ready, unless another session holds on to its
log, or the tables are of another version. -/
theorem openDatabase_cases (h : x.Holds ks m T d) {s : DatabaseSettings} (hx : x.Fits m)
    (hx' : x.Fits s.journalMode) (hleads : x.ways.Leads s.path x.place) (hfile : Site.NamesFile s.path)
    (hwait : s.busyTimeoutMs ≤ DatabaseSettings.maxBusyTimeoutMs) :
    (∃ tables? d', T.prepare = .ok tables? ∧ openDatabase d s = (.opened ⟨d.opened⟩, d') ∧
        x.Holds (d.opened :: ks) s.journalMode (tables?.getD T) d') ∨
      ∃ e m' d', (e = .engine .locked ∧ (m = .wal ∧ s.journalMode = .delete ∧ ks ≠ []) ∨ T.prepare = .error e) ∧
        openDatabase d s = (.refused e, d') ∧ x.Fits m' ∧ x.Holds ks m' T d' := by
  obtain ⟨hcheck, hmake, hplace⟩ := hleads.again h.lodges.ways h.lodges.node
  have hc : d.opened ∈ d.opened :: ks := List.mem_cons_self
  have hnew : d.opened ∉ ks := fun hk ↦ Nat.lt_irrefl _ (h.lodges.below _ hk)
  obtain ⟨d₁, hconnect, h₁⟩ := exists_run (h.connect hfile hplace)
  have hopen (o : Opening) (d' : Disk) (hset : setUp ⟨d.opened⟩ d₁ s = (o, d')) :
      openDatabase d s = (o, d') := by
    simp only [openDatabase, hcheck, hmake, hconnect, hset]
  have hturn := h₁.turn_cases hx hc s.journalMode
  cases hrun : (Engine.turn d.opened s.journalMode).run d₁ with
  | mk r d₂ =>
    rcases hturn.of_run hrun with ⟨rfl, h₂⟩ | ⟨rfl, ⟨hm, hs, j, hj, hne⟩, h₂⟩
    · cases hT : T.prepare with
      | ok tables? =>
        obtain ⟨d₃, hprepare, h₃⟩ := prepare_holds (c := ⟨d.opened⟩) h₂ hx' hc hT
        refine .inl ⟨tables?, d₃, rfl, hopen _ _ ?_, h₃⟩
        simp only [setUp, hrun, Nat.not_lt.2 hwait, if_false, hprepare]
      | error e =>
        obtain ⟨d₃, hprepare, h₃⟩ := prepare_holds_of_error (c := ⟨d.opened⟩) h₂ hx' hc hT
        refine .inr ⟨e, s.journalMode, close ⟨d.opened⟩ d₃, .inr rfl, hopen _ _ ?_, hx',
          holds_of_close h₃ hnew⟩
        simp only [setUp, hrun, Nat.not_lt.2 hwait, if_false, hprepare]
    · have hks : ks ≠ [] := List.ne_nil_of_mem (List.mem_of_ne_of_mem hne hj)
      refine .inr ⟨_, m, close ⟨d.opened⟩ d₂, .inl ⟨rfl, hm, hs, hks⟩, hopen _ _ ?_, hx,
        holds_of_close h₂ hnew⟩
      simp only [setUp, hrun]

theorem openDatabase_holds (h : x.Holds ks m T d) {s : DatabaseSettings} (hx : x.Fits m)
    (hx' : x.Fits s.journalMode) (hleads : x.ways.Leads s.path x.place) (hfile : Site.NamesFile s.path)
    (hT : T.prepare = .ok none)
    (hmode : m = s.journalMode ∨ ks = []) (hwait : s.busyTimeoutMs ≤ DatabaseSettings.maxBusyTimeoutMs) :
    ∃ d', openDatabase d s = (.opened ⟨d.opened⟩, d') ∧ x.Holds (d.opened :: ks) s.journalMode T d' := by
  rcases openDatabase_cases h hx hx' hleads hfile hwait with ⟨tables?, d', hprepare, hopen, hd'⟩ |
    ⟨e, m', d', ⟨-, hm, hs, hks⟩ | hprepare, -⟩
  · cases hT.symm.trans hprepare
    exact ⟨d', hopen, hd'⟩
  · rcases hmode with hmode | hnil
    · rw [hm, hs] at hmode
      cases hmode
    · exact absurd hnil hks
  · cases hT.symm.trans hprepare

end Connection

end Gatekeeper
