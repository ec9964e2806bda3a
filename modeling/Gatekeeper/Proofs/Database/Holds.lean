import Gatekeeper.Proofs.Database.Lodged

namespace Gatekeeper.Site

open Disk Engine

variable {x : Site} {d d' : Disk} {s t : Session} {ks : List Nat} {k g : Nat} {m m' : JournalMode}
  {T T' : Database}

/-- The tables in a log, or those of the file where nothing has been written to the log. -/
def logged (c? : Option Content) (T : Database) : Database :=
  match c? with
  | some (.log T') => T'
  | _ => T

/-- Whether the tables are in the file, and no session has a log. -/
structure HoldsInFile (x : Site) (ks : List Nat) (m : JournalMode) (T : Database) (d : Disk) : Prop
    extends x.Lodges ks d where
  journal : d.node? (journalOf x.place) = none
  content : d.content? x.file = some (.image ⟨m, T⟩)
  absent : d.isPresent (logOf x.place) = false
  unlogged : ∀ s ∈ d.sessions, s.file = x.file → s.log = none ∧ s.index = .missing

structure Logs (x : Site) (ks : List Nat) (g : Nat) (T : Database) (d : Disk) : Prop
    extends x.Lodges ks d where
  journal : d.node? (journalOf x.place) = none
  log : d.node? (logOf x.place) = some (.file g)
  content : ∃ T₀, d.content? x.file = some (.image ⟨.wal, T₀⟩) ∧ logged (d.content? g) T₀ = T

/-- Whether the tables are in a log, which those sessions hold on to that have looked for it. -/
structure HoldsInLog (x : Site) (ks : List Nat) (g : Nat) (T : Database) (d : Disk) : Prop
    extends x.Logs ks g T d where
  shared : ∀ s ∈ d.sessions, s.file = x.file →
    s.log = none ∧ s.index = .missing ∨ s.log = some g ∧ s.index = .writable
  held : ∃ s ∈ d.sessions, s.file = x.file ∧ s.log.isSome

inductive Holds (x : Site) (ks : List Nat) : JournalMode → Database → Disk → Prop
  | inFile {m : JournalMode} {T : Database} {d : Disk} (h : x.HoldsInFile ks m T d) : Holds x ks m T d
  | inLog {g : Nat} {T : Database} {d : Disk} (h : x.HoldsInLog ks g T d) : Holds x ks .wal T d

/-- Whether the database of a site holds tables, and a session has found the log if there is one. -/
inductive Ready (x : Site) (ks : List Nat) (k : Nat) : JournalMode → Database → Disk → Prop
  | inFile {T : Database} {d : Disk} (h : x.HoldsInFile ks .delete T d) : Ready x ks k .delete T d
  | inLog {g : Nat} {T : Database} {d : Disk} (h : x.HoldsInLog ks g T d)
      (hs : ∃ s, d.session? k = some s ∧ s.log = some g) : Ready x ks k .wal T d

/-- What is needed beside the file in a journal mode: only a log has an index. -/
structure Fits (x : Site) (m : JournalMode) : Prop where
  parent : x.ways.isDirectoryAt x.place.dropLast = true
  short : (journalOf x.place).name.utf8ByteSize ≤ Path.maxComponentBytes
  index : m = .wal → x.ways.isDirectoryAt (indexOf x.place) = false

theorem Ready.holds (h : x.Ready ks k m T d) : x.Holds ks m T d := by
  cases h with
  | inFile h => exact .inFile h
  | inLog h _ => exact .inLog h

theorem Holds.lodges (h : x.Holds ks m T d) : x.Lodges ks d := by
  cases h with
  | inFile h => exact h.toLodges
  | inLog h => exact h.toLodges

theorem Lodges.text_journal (h : x.Lodges ks d) : (journalOf x.place).text ≠ x.place.text :=
  Place.text_beside_ne_self h.ne_nil (by decide)

theorem Lodges.text_log (h : x.Lodges ks d) : (logOf x.place).text ≠ x.place.text :=
  Place.text_beside_ne_self h.ne_nil (by decide)

theorem Lodges.text_index (h : x.Lodges ks d) : (indexOf x.place).text ≠ x.place.text :=
  Place.text_beside_ne_self h.ne_nil (by decide)

theorem Lodges.ne_file (h : x.Lodges ks d) {q : Place} {n : Nat} (hq : q.text ≠ x.place.text)
    (hn : d.node? q = some (.file n)) : n ≠ x.file := by
  rintro rfl
  exact hq (h.only q hn)

theorem Lodges.isPresent_setContent (h : x.Lodges ks d) {q : Place} (hq : q.text ≠ x.place.text)
    (c : Content) : (d.setContent x.file c).isPresent q = d.isPresent q := by
  have hnode : (d.setContent x.file c).node? q = d.node? q := rfl
  rw [isPresent, isPresent, hnode]
  split
  · rfl
  · rfl
  next n hn => rw [content?_setContent_of_ne (h.ne_file hq hn)]

theorem Lodges.lt_file (h : x.Lodges ks d) : x.file < d.contents.length := h.wellFormed.lt_of_node? h.node

theorem mem_othersOn {t : Session} :
    t ∈ d.othersOn s ↔ t ∈ d.sessions ∧ t.file = s.file ∧ t.number ≠ s.number := by
  simp [othersOn]

theorem Lodges.isShutOut (h : x.Lodges ks d) (hs : s.IsPlain x) : d.isShutOut s = false := by
  have hothers : ((d.othersOn s).any fun t ↦ t.program != s.program &&
      (t.locking == .exclusive || (s.locking == .exclusive && t.log.isSome))) = false := by
    rw [List.any_eq_false]
    intro t ht
    obtain ⟨ht, hfile, -⟩ := mem_othersOn.1 ht
    have hplain := (h.plain t ht (hfile.trans hs.file)).2.2
    simp [hplain.locking, hs.locking]
  rw [Disk.isShutOut, hothers, Bool.and_false]

theorem isContended_of_unlogged (hs : s.IsPlain x)
    (h : ∀ t ∈ d.sessions, t.file = x.file → t.number ≠ s.number → t.log = none) :
    d.isContended s = false := by
  have hothers : d.logIsShared s = false := by
    rw [logIsShared, List.any_eq_false]
    intro t ht
    obtain ⟨ht, hfile, hnumber⟩ := mem_othersOn.1 ht
    simp [h t ht (hfile.trans hs.file) hnumber]
  rw [isContended, hothers, Bool.and_false]

theorem Lodges.hasMoved (h : x.Lodges ks d) (hs : s.IsPlain x) : d.hasMoved s x.place = false := by
  simp [Disk.hasMoved, fileAt?_of_node? h.node, hs.file]

theorem Lodges.yields_settle (h : x.Lodges ks d) (hs : s.IsPlain x) {Q : Except EngineFault Unit → Disk → Prop} :
    Yields (settle s x.place) d Q ↔
      Yields (settleJournal s x.place >>= fun _ ↦ findLog s x.place) d Q := by
  unfold settle
  simp only [yields_bind, yields_get, yields_ite, h.isShutOut hs, hs.locking]
  rfl

theorem yields_settleJournal_of_none {p : Place} (hjournal : d.node? (journalOf p) = none)
    {Q : Except EngineFault Unit → Disk → Prop} : Yields (settleJournal s p) d Q ↔ Q (.ok ()) d := by
  rw [yields_settleJournal, if_neg (by simp [isPresent_of_none hjournal])]

theorem Logs.lt_log (h : x.Logs ks g T d) : g < d.contents.length := h.wellFormed.lt_of_node? h.log

theorem Logs.ne_log (h : x.Logs ks g T d) : g ≠ x.file := h.ne_file h.text_log h.log

theorem logged_of_ne {c? : Option Content} (h : ∀ T', c? ≠ some (.log T')) (T : Database) :
    logged c? T = T := by
  unfold logged
  split
  next T' => exact absurd rfl (h T')
  · rfl

theorem Logs.setSession (h : x.Logs ks g T d) (hs : s.IsPlain x) (hk : s.number ∈ ks)
    (hlog : s.log = some g) : x.Logs ks g T (d.setSession s) where
  toLodges := by
    refine h.toLodges.setSession hs hk fun n hn ↦ ?_
    rw [hlog] at hn
    exact Option.some.inj hn ▸ h.lt_log
  journal := h.journal
  log := h.log
  content := h.content

theorem Logs.setContent_index (h : x.Logs ks g T d) (hlog : ∀ T', d.content? g ≠ some (.log T')) {n : Nat}
    (hn : n ≠ x.file) : x.Logs ks g T (d.setContent n .index) where
  toLodges := h.toLodges.setContent n _
  journal := h.journal
  log := h.log
  content := by
    obtain ⟨T₀, hfile, htables⟩ := h.content
    refine ⟨T₀, (content?_setContent_of_ne hn.symm).trans hfile, ?_⟩
    rw [logged_of_ne hlog] at htables
    rw [logged_of_ne _ T₀, htables]
    intro T'
    by_cases hgn : g = n
    · rw [← hgn, content?_setContent d _ h.lt_log]
      nofun
    · rw [content?_setContent_of_ne hgn]
      exact hlog T'

theorem Logs.createFile_index (h : x.Logs ks g T d) (hindex : d.node? (indexOf x.place) = none) :
    x.Logs ks g T (d.createFile (indexOf x.place) .index).2 where
  toLodges := h.toLodges.createFile hindex _
  journal := (node?_createFile_of_ne (text_journalOf_ne_indexOf _)).trans h.journal
  log := (node?_createFile_of_ne (text_logOf_ne_indexOf _)).trans h.log
  content := by
    obtain ⟨T₀, hfile, htables⟩ := h.content
    refine ⟨T₀, (content?_createFile h.lt_file).trans hfile, ?_⟩
    rw [content?_createFile h.lt_log]
    exact htables

/-- Whether a session can join in a log: every other session on the file has it or has looked for none,
and if none has it, nothing has been written to it. -/
structure Joins (x : Site) (ks : List Nat) (g : Nat) (s : Session) (d : Disk) : Prop where
  plain : s.IsPlain x
  number : s.number ∈ ks
  others : ∀ t ∈ d.sessions, t.file = x.file → t.number ≠ s.number →
    t.log = none ∧ t.index = .missing ∨ t.log = some g ∧ t.index = .writable
  fresh : (∃ t ∈ d.sessions, t.file = x.file ∧ t.number ≠ s.number ∧ t.log.isSome) ∨
    ∀ T', d.content? g ≠ some (.log T')

theorem Logs.join (h : x.Logs ks g T d) (hs : x.Joins ks g s d) (hlog : s.log = some g) :
    x.HoldsInLog ks g T (d.setSession { s with index := .writable }) ∧
      (d.setSession { s with index := .writable }).session? s.number = some { s with index := .writable } := by
  obtain ⟨t, ht, -⟩ := h.found s.number hs.number
  have hplain : ({ s with index := .writable } : Session).IsPlain x := hs.plain.withLog s.log .writable
  refine ⟨⟨h.setSession hplain hs.number hlog, fun v hv hfile ↦ ?_, ?_⟩, session?_setSession_self ht⟩
  · obtain ⟨u, hu, rfl⟩ := List.mem_map.1 hv
    by_cases hnumber : u.number = s.number
    · rw [if_pos hnumber]
      exact .inr ⟨hlog, rfl⟩
    · rw [if_neg hnumber] at hfile ⊢
      exact hs.others u hu hfile hnumber
  · refine ⟨{ s with index := .writable }, List.mem_map.2 ⟨t, session?_mem ht, ?_⟩, hs.plain.file,
      by simp [hlog]⟩
    rw [if_pos (session?_number ht)]

theorem Joins.index_of_mem {t : Session} (h : x.Joins ks g s d) (ht : t ∈ d.othersOn s)
    (hindex : t.index ≠ .missing) : t.index = .writable := by
  obtain ⟨hmem, hfile, hnumber⟩ := mem_othersOn.1 ht
  rcases h.others t hmem (hfile.trans h.plain.file) hnumber with ⟨-, hi⟩ | ⟨-, hi⟩
  · exact absurd hi hindex
  · exact hi

theorem Joins.empty (h : x.Joins ks g s d) (hnone : ∀ t ∈ d.othersOn s, t.index = .missing) (T' : Database) :
    d.content? g ≠ some (.log T') := by
  rcases h.fresh with ⟨t, ht, hfile, hnumber, hl⟩ | hempty
  · have hmissing := hnone t (mem_othersOn.2 ⟨ht, hfile.trans h.plain.file.symm, hnumber⟩)
    rcases h.others t ht hfile hnumber with ⟨hlog, -⟩ | ⟨-, hindex⟩
    · simp [hlog] at hl
    · simp [hindex] at hmissing
  · exact hempty T'

theorem Lodges.not_exclusive (h : x.Lodges ks d) (hs : s.IsPlain x) :
    ((s :: d.othersOn s).any fun t ↦ t.locking == .exclusive) = false := by
  rw [List.any_eq_false]
  intro t ht
  rcases List.mem_cons.1 ht with rfl | ht
  · simp [hs.locking]
  · obtain ⟨ht, hfile, -⟩ := mem_othersOn.1 ht
    simp [(h.plain t ht (hfile.trans hs.file)).2.2.locking]

theorem Logs.openIndex (h : x.Logs ks g T d) (hx : x.Fits .wal) (hs : x.Joins ks g s d) (hlog : s.log = some g) :
    Yields (openIndex s x.place) d fun r d' ↦ r = .ok () ∧ x.HoldsInLog ks g T d' ∧
      d'.session? s.number = some { s with index := .writable } := by
  obtain ⟨hset, hfound⟩ := h.join hs hlog
  unfold Engine.openIndex
  rw [yields_bind, yields_get]
  dsimp only
  split
  next t ht =>
    -- Another session has the index already: it is shared.
    have hindex : t.index ≠ .missing := by simpa using List.find?_some ht
    rw [hs.index_of_mem (List.mem_of_find?_eq_some ht) hindex, yields_set]
    exact ⟨rfl, hset, hfound⟩
  next hnone =>
    -- Nobody has it, so the log says no tables, and whatever lies in its place can be written over.
    have hempty := hs.empty fun t ht ↦ by simpa using List.find?_eq_none.1 hnone t ht
    have hdirectory := (h.ways.directory (indexOf x.place)).trans (hx.index rfl)
    rw [h.not_exclusive hs.plain]
    simp only [Bool.false_eq_true, if_false]
    split
    next hnode => simp [isDirectoryAt, hnode] at hdirectory
    next hfixed =>
      rw [hs.plain.fixedIndex] at hfixed
      cases hfixed
    next n hnode _ =>
      exact ⟨rfl, ⟨hset.setContent_index hempty (h.ne_file h.text_index hnode), hset.shared, hset.held⟩, hfound⟩
    next hfixed =>
      rw [hs.plain.fixedIndex] at hfixed
      cases hfixed
    next hnode _ => exact ⟨rfl, ⟨hset.createFile_index hnode, hset.shared, hset.held⟩, hfound⟩

theorem Logs.openLog (h : x.Logs ks g T d') (hx : x.Fits .wal) (hs : x.Joins ks g s d')
    (hopen : d.openAt? (logOf x.place) = some (g, d')) (hnode : (d.node? x.place).isSome) :
    Yields (openLog s x.place) d fun r d' ↦ r = .ok () ∧ x.HoldsInLog ks g T d' ∧
      d'.session? s.number = some { s with log := some g, index := .writable } := by
  have hplain : ({ s with log := some g } : Session).IsPlain x := hs.plain.withLog _ s.index
  have hset := h.setSession hplain hs.number rfl
  have hjoins : x.Joins ks g { s with log := some g } (d'.setSession { s with log := some g }) := by
    refine ⟨hplain, hs.number, fun t ht hfile hnumber ↦ ?_, ?_⟩
    · obtain ⟨u, hu, rfl⟩ := List.mem_map.1 ht
      by_cases hu' : u.number = s.number
      · rw [if_pos hu'] at hnumber
        exact absurd rfl hnumber
      · rw [if_neg hu'] at hfile ⊢
        exact hs.others u hu hfile hu'
    · refine hs.fresh.imp_left fun ⟨t, ht, hfile, hnumber, hl⟩ ↦
        ⟨t, List.mem_map.2 ⟨t, ht, ?_⟩, hfile, hnumber, hl⟩
      rw [if_neg hnumber]
  have hcan : s.canLog = true := hs.plain.locksFile
  unfold Engine.openLog
  simp only [yields_bind, yields_ite, yields_throw, yields_needName, yields_get, hcan, hopen, yields_set,
    Option.isNone_eq_false_iff.2 hnode]
  exact hset.openIndex hx hjoins rfl

theorem HoldsInFile.openAt? (h : x.HoldsInFile ks .wal T d) (hx : x.Fits m) :
    ∃ g d', d.openAt? (logOf x.place) = some (g, d') ∧ x.Logs ks g T d' ∧ d'.sessions = d.sessions ∧
      ∀ T', d'.content? g ≠ some (.log T') := by
  have habsent := h.absent
  cases hnode : d.node? (logOf x.place) with
  | none =>
    have hcan : d.canCreate (logOf x.place) = true := by
      -- Where the longer name of the journal fits, that of the log does.
      have hshort := hx.short
      rw [journalOf, Place.name_beside, String.utf8ByteSize_append] at hshort
      have hjournal : "-journal".utf8ByteSize = 8 := rfl
      have hwal : "-wal".utf8ByteSize = 4 := rfl
      rw [canCreate, logOf, Place.dropLast_beside, Place.name_beside, String.utf8ByteSize_append,
        h.ways.directory, hx.parent, Bool.true_and, decide_eq_true_eq]
      omega
    have hlogs : x.Logs ks d.contents.length T (d.createFile (logOf x.place) (.bytes [])).2 := by
      refine ⟨h.toLodges.createFile hnode _, ?_, node?_createFile_self (ne_nil_of_none hnode), T, ?_, ?_⟩
      · exact (node?_createFile_of_ne (text_journalOf_ne_logOf _)).trans h.journal
      · exact (content?_createFile h.lt_file).trans h.content
      · rw [content?_createFile_self]
        rfl
    refine ⟨_, _, ?_, hlogs, rfl, fun T' ↦ ?_⟩
    · simp only [Disk.openAt?, hnode, hcan, if_true]
      rfl
    · rw [content?_createFile_self]
      intro hc
      cases hc
  | some e =>
    cases e with
    | directory => simp [isPresent, hnode] at habsent
    | file g =>
      have hempty : ∀ T', d.content? g ≠ some (.log T') := by
        intro T' hc
        simp [isPresent, hnode, hc, Content.isEmpty] at habsent
      refine ⟨g, d, by simp only [Disk.openAt?, hnode], ?_, rfl, hempty⟩
      exact ⟨h.toLodges, h.journal, hnode, T, h.content, logged_of_ne hempty T⟩

theorem HoldsInLog.openAt? (h : x.HoldsInLog ks g T d) : d.openAt? (logOf x.place) = some (g, d) := by
  simp only [Disk.openAt?, h.log]

theorem contentOf_eq {c : Content} (hs : s.IsPlain x) (h : d.content? x.file = some c) : contentOf d s = c := by
  rw [contentOf, hs.file, h, Option.getD_some]

theorem yields_findLog_delete {T₀ : Database} {p : Place} {Q : Except EngineFault Unit → Disk → Prop}
    (hc : contentOf d s = .image ⟨.delete, T₀⟩) (habsent : d.isPresent (logOf p) = false) :
    Yields (findLog s p) d Q ↔ Q (.ok ()) d := by
  unfold findLog
  simp only [yields_bind, yields_get, yields_content, yields_ite, yields_image, yields_pure, hc, habsent]
  rfl

theorem yields_findLog_wal {T₀ : Database} {p : Place} {Q : Except EngineFault Unit → Disk → Prop}
    (hc : contentOf d s = .image ⟨.wal, T₀⟩) : Yields (findLog s p) d Q ↔ Yields (openLog s p) d Q := by
  unfold findLog
  simp only [yields_bind, yields_get, yields_content, yields_ite, yields_image, yields_pure, hc]
  cases d.isPresent (logOf p) <;> rfl

theorem yields_read_of_unlogged (hs : d.session? k = some s) (hplain : s.IsPlain x) (hlog : s.log = none)
    {Q : Except EngineFault Database → Disk → Prop} :
    Yields (Engine.read k) d Q ↔ Yields (settle s x.place >>= fun _ ↦ session k >>= visible) d Q := by
  unfold Engine.read
  rw [yields_bind, yields_session, hs]
  simp only [hplain.place, hlog, hplain.fixed]
  rfl

theorem Logs.tablesOf (h : x.Logs ks g T d) (hs : s.IsPlain x) (hlog : s.log = some g) :
    tablesOf d s = .ok T := by
  obtain ⟨T₀, hfile, rfl⟩ := h.content
  rw [Engine.tablesOf, hlog, Option.bind_some, contentOf_eq hs hfile]
  rcases d.content? g with _ | (_ | _ | _ | _) <;> rfl

theorem HoldsInFile.session (h : x.HoldsInFile ks m T d) (hk : k ∈ ks) :
    ∃ s, d.session? k = some s ∧ s.IsPlain x ∧ s.log = none := by
  obtain ⟨s, hs, hplain⟩ := h.found k hk
  exact ⟨s, hs, hplain, (h.unlogged s (session?_mem hs) hplain.file).1⟩

theorem HoldsInFile.read (h : x.HoldsInFile ks .delete T d) (hk : k ∈ ks) :
    Yields (Engine.read k) d fun r d' ↦ r = .ok T ∧ x.Ready ks k .delete T d' := by
  obtain ⟨s, hs, hplain, hlog⟩ := h.session hk
  have hcontent := contentOf_eq hplain h.content
  rw [yields_read_of_unlogged hs hplain hlog, yields_bind, h.yields_settle hplain, yields_bind,
    yields_settleJournal_of_none h.journal]
  dsimp only
  rw [yields_findLog_delete hcontent h.absent]
  dsimp only
  rw [yields_bind, yields_session, hs]
  refine (yields_visible s).2 ⟨?_, .inFile h⟩
  rw [tablesOf, hlog, hcontent]
  rfl

theorem Logs.read (h : x.Logs ks g T d') (hx : x.Fits .wal) (hd : x.Lodges ks d)
    (hjournal : d.node? (journalOf x.place) = none) (hs : d.session? k = some s) (hlog : s.log = none)
    (hjoins : x.Joins ks g s d') (hopen : d.openAt? (logOf x.place) = some (g, d')) {T₀ : Database}
    (hcontent : contentOf d s = .image ⟨.wal, T₀⟩) :
    Yields (Engine.read k) d fun r d' ↦ r = .ok T ∧ x.Ready ks k .wal T d' := by
  obtain rfl := session?_number hs
  have hnode : (d.node? x.place).isSome := by
    rw [hd.node]
    rfl
  rw [yields_read_of_unlogged hs hjoins.plain hlog, yields_bind, hd.yields_settle hjoins.plain, yields_bind,
    yields_settleJournal_of_none hjournal]
  dsimp only
  rw [yields_findLog_wal hcontent]
  refine (h.openLog hx hjoins hopen hnode).imp ?_
  rintro r d₁ ⟨rfl, hholds, hfound⟩
  dsimp only
  rw [yields_bind, yields_session, hfound]
  refine (yields_visible _).2 ⟨?_, .inLog hholds ⟨_, hfound, rfl⟩⟩
  exact hholds.tablesOf (hjoins.plain.withLog _ _) rfl

theorem Holds.read (h : x.Holds ks m T d) (hx : x.Fits m) (hk : k ∈ ks) :
    Yields (Engine.read k) d fun r d' ↦ r = .ok T ∧ x.Ready ks k m T d' := by
  obtain ⟨s, hs, hplain⟩ := h.lodges.found k hk
  have hnumber := session?_number hs
  cases h with
  | @inFile m _ _ h =>
    cases m with
    | delete => exact h.read hk
    | wal =>
      obtain ⟨g, d', hopen, hlogs, hsessions, hfresh⟩ := h.openAt? hx
      have hlog := (h.unlogged s (session?_mem hs) hplain.file).1
      refine hlogs.read hx h.toLodges h.journal hs hlog ⟨hplain, hnumber ▸ hk, ?_, .inr hfresh⟩ hopen
        (contentOf_eq hplain h.content)
      intro t ht hfile _
      rw [hsessions] at ht
      exact .inl (h.unlogged t ht hfile)
  | @inLog g _ _ h =>
    rcases h.shared s (session?_mem hs) hplain.file with ⟨hlog, -⟩ | ⟨hlog, hindex⟩
    · obtain ⟨T₀, hfile, -⟩ := h.content
      obtain ⟨t, ht, htfile, htlog⟩ := h.held
      refine h.toLogs.read hx h.toLodges h.journal hs hlog
        ⟨hplain, hnumber ▸ hk, fun t ht hfile _ ↦ h.shared t ht hfile, .inl ⟨t, ht, htfile, ?_, htlog⟩⟩
        h.openAt? (contentOf_eq hplain hfile)
      -- The one that holds on to the log is not the session itself, which has looked for none.
      intro heq
      rw [h.eq_of_number hs ht htfile (heq.trans hnumber), hlog] at htlog
      cases htlog
    · unfold Engine.read
      rw [yields_bind, yields_session, hs]
      simp only [hplain.place, hlog, hindex]
      refine (yields_bind (session k) visible).2 ?_
      rw [yields_session, hs]
      exact (yields_visible s).2 ⟨h.tablesOf hplain hlog, .inLog h ⟨s, hs, hlog⟩⟩

theorem Lodges.written (h : x.Lodges ks d) (habsent : d.isPresent (logOf x.place) = false)
    (hunlogged : ∀ s ∈ d.sessions, s.file = x.file → s.log = none ∧ s.index = .missing)
    (hjournal : d.isDirectoryAt (journalOf x.place) = false) (i : Image) :
    x.HoldsInFile ks i.journal i.tables ((d.unlink (journalOf x.place)).setContent x.file (.image i)) := by
  have hunlink := h.unlink h.text_journal
  refine ⟨hunlink.setContent _ _, node?_unlink_self hjournal, content?_setContent _ _ hunlink.lt_file, ?_, ?_⟩
  · rw [hunlink.isPresent_setContent h.text_log]
    exact isPresent_unlink habsent
  · intro s hs
    have hs : s ∈ (d.unlink (journalOf x.place)).sessions := hs
    rw [sessions_unlink] at hs
    exact hunlogged s hs

theorem HoldsInFile.writeFile (h : x.HoldsInFile ks m T d) (hx : x.Fits m') (hs : s.IsPlain x) (i : Image) :
    Yields (Engine.writeFile s i) d fun r d' ↦ r = .ok () ∧ x.HoldsInFile ks i.journal i.tables d' := by
  have hnode : (d.node? x.place).isNone = false := by
    rw [h.node]
    rfl
  have hdirectory := isDirectoryAt_of_none h.journal
  have hshort : decide (Path.maxComponentBytes < (journalOf x.place).name.utf8ByteSize) = false := by
    simpa using hx.short
  have hcontended := isContended_of_unlogged hs fun t ht hfile _ ↦ (h.unlogged t ht hfile).1
  unfold Engine.writeFile
  rw [yields_bind, yields_get]
  simp only [hs.place, yields_bind, yields_needName, yields_content, yields_set, hnode, h.hasMoved hs, hdirectory,
    hshort, hcontended, Bool.and_false, Bool.or_self, Bool.false_eq_true,
    if_false]
  rw [hs.file]
  exact ⟨trivial, h.written h.absent h.unlogged hdirectory i⟩

theorem HoldsInFile.canWrite (h : x.HoldsInFile ks m T d) (hs : d.session? k = some s) (hk : k ∈ ks) :
    s.cannotWrite = false := by
  have hplain := h.of_session? hk hs
  simp [Session.cannotWrite, hplain.readOnly, hplain.fixed, (h.unlogged s (session?_mem hs) hplain.file).1]

theorem HoldsInLog.canWrite (h : x.HoldsInLog ks g T d) (hs : d.session? k = some s) (hk : k ∈ ks)
    (hlog : s.log = some g) : s.cannotWrite = false := by
  have hplain := h.of_session? hk hs
  rcases h.shared s (session?_mem hs) hplain.file with ⟨hnone, -⟩ | ⟨-, hindex⟩
  · simp [hlog] at hnone
  · simp [Session.cannotWrite, hplain.readOnly, hplain.fixed, hindex]

theorem Ready.write (h : x.Ready ks k m T d) (hx : x.Fits m) (hk : k ∈ ks) (T' : Database) :
    Yields (Engine.write k (some T')) d fun r d' ↦ r = .ok () ∧ x.Holds ks m T' d' := by
  unfold Engine.write
  cases h with
  | inFile h =>
    obtain ⟨s, hs, hplain, hlog⟩ := h.session hk
    have hcan := h.canWrite hs hk
    rw [yields_bind, yields_session, hs]
    simp only [yields_bind, hcan, hlog, Bool.false_eq_true, if_false, yields_image,
      contentOf_eq hplain h.content, Content.image?]
    exact (h.writeFile hx hplain _).imp fun _ _ hd ↦ ⟨hd.1, .inFile hd.2⟩
  | inLog h hs =>
    obtain ⟨s, hs, hlog⟩ := hs
    have hplain := h.of_session? hk hs
    have hcan := h.canWrite hs hk hlog
    rw [yields_bind, yields_session, hs]
    simp only [hcan, hlog, Bool.false_eq_true, if_false, yields_bind, yields_get, yields_set]
    obtain ⟨T₀, hfile, -⟩ := h.content
    refine ⟨trivial, .inLog ⟨⟨h.toLodges.setContent _ _, h.journal, h.log, T₀, ?_, ?_⟩, h.shared, h.held⟩⟩
    · exact (content?_setContent_of_ne h.ne_log.symm).trans hfile
    · rw [content?_setContent _ _ h.lt_log]
      rfl

theorem Ready.write_nothing (h : x.Ready ks k m T d) (hk : k ∈ ks) :
    Yields (Engine.write k none) d fun r d' ↦ r = .ok () ∧ d' = d := by
  have hcan : ∃ s, d.session? k = some s ∧ s.cannotWrite = false := by
    cases h with
    | inFile h =>
      obtain ⟨s, hs, -⟩ := h.found k hk
      exact ⟨s, hs, h.canWrite hs hk⟩
    | inLog h hs =>
      obtain ⟨s, hs, hlog⟩ := hs
      exact ⟨s, hs, h.canWrite hs hk hlog⟩
  obtain ⟨s, hs, hcan⟩ := hcan
  unfold Engine.write
  rw [yields_bind, yields_session, hs]
  simp only [hcan, Bool.false_eq_true, if_false]
  exact ⟨rfl, rfl⟩

end Gatekeeper.Site
