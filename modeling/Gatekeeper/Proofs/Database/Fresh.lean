import Gatekeeper.Proofs.Database.Handles

namespace Gatekeeper

open Disk Engine

namespace Site

variable {x : Site} {d d' w : Disk} {s : Session} {k : Nat} {m : JournalMode} {path : String} {p q : Place}

/-- Whether nothing has been written to the file of a site, and nobody has it open. -/
structure Untouched (x : Site) (d : Disk) : Prop extends x.Lodges [] d where
  content : d.content? x.file = some (.bytes [])

/-- Whether a session has opened a file that nothing has been written to yet. -/
structure Fresh (x : Site) (k : Nat) (d : Disk) : Prop extends x.Lodges [k] d where
  content : d.content? x.file = some (.bytes [])
  unlogged : ∀ s ∈ d.sessions, s.file = x.file → s.log = none ∧ s.index = .missing

structure Free (x : Site) : Prop where
  short : (journalOf x.place).name.utf8ByteSize ≤ Path.maxComponentBytes
  journal : x.ways.isDirectoryAt (journalOf x.place) = false
  log : x.ways.isDirectoryAt (logOf x.place) = false

theorem lodges_createFile (hw : w.WellFormed) (hnode : w.node? p = none) (c : Content) :
    (⟨w, p, w.contents.length⟩ : Site).Lodges [] (w.createFile p c).2 where
  wellFormed := hw.createFile p _
  ways := ⟨rfl, isDirectoryAt_createFile _ hnode⟩
  node := node?_createFile_self (ne_nil_of_none hnode)
  only := by
    intro q hq
    refine Decidable.byContradiction fun htext ↦ ?_
    rw [node?_createFile_of_ne htext] at hq
    exact Nat.lt_irrefl _ (hw.lt_of_node? hq)
  found := nofun
  plain := by
    intro s hs hfile
    exact absurd ((hw.sessions s hs).file) (by simp [hfile])
  below := nofun

theorem untouched_createFile (hw : w.WellFormed) (hnode : w.node? p = none) :
    (⟨w, p, w.contents.length⟩ : Site).Untouched (w.createFile p (.bytes [])).2 :=
  ⟨lodges_createFile hw hnode _, content?_createFile_self w p _⟩

theorem Untouched.begin (h : x.Untouched d) (path : String) :
    x.Fresh d.opened (d.addSession (newSession { path } x.file (some x.place) none)).2 := by
  refine ⟨h.toLodges.addSession (isPlain_newSession path x) rfl, h.content, ?_⟩
  intro s hs hfile
  rcases List.mem_cons.1 hs with rfl | hs
  · exact ⟨rfl, rfl⟩
  · exact absurd (h.plain s hs hfile).1 List.not_mem_nil

theorem Fresh.unlink (h : x.Fresh k d) (hq : q.text ≠ x.place.text) : x.Fresh k (d.unlink q) := by
  refine ⟨h.toLodges.unlink hq, ?_, fun s hs ↦ ?_⟩
  · simpa [content?] using h.content
  · rw [sessions_unlink] at hs
    exact h.unlogged s hs

theorem Fresh.session (h : x.Fresh k d) : ∃ s, d.session? k = some s ∧ s.IsPlain x ∧ s.log = none := by
  obtain ⟨s, hs, hplain⟩ := h.found k List.mem_cons_self
  exact ⟨s, hs, hplain, (h.unlogged s (session?_mem hs) hplain.file).1⟩

theorem Fresh.settleJournal (h : x.Fresh k d) (hs : s.IsPlain x) :
    Yields (settleJournal s x.place) d fun r d' ↦ r = .ok () ∧ x.Fresh k d' := by
  have hcontent : contentOf d s = .bytes [] := contentOf_eq hs h.content
  have hblank : (Content.bytes []).isBlank = true := rfl
  have hok : Yields (Engine.settleJournal s x.place) d fun r _ ↦ r = .ok () := by
    rw [yields_settleJournal, hcontent, if_pos hblank]
    simp only [ite_self]
  refine hok.and ((settleJournal_yields s x.place).imp fun _ d' hd' ↦ ?_)
  rcases hd' with rfl | rfl
  · exact h
  · exact h.unlink h.text_journal

theorem Fresh.findLog (h : x.Fresh k d) (hs : s.IsPlain x) :
    Yields (findLog s x.place) d fun r d' ↦ match r with
      | .ok _ => x.Fresh k d' ∧ d'.isPresent (logOf x.place) = false
      | .error _ => ¬ x.Free ∧ x.Fresh k d' := by
  have hcontent : contentOf d s = .bytes [] := contentOf_eq hs h.content
  have hblank : (Content.bytes []).isBlank = true := rfl
  unfold Engine.findLog
  simp only [yields_bind, yields_get, yields_content, yields_ite, yields_throw, yields_set, yields_pure,
    hcontent, hblank, Bool.not_true, Bool.false_eq_true, if_false]
  split
  · split
    next hdirectory =>
      refine ⟨fun hfree ↦ ?_, h⟩
      rw [h.ways.directory, hfree.log] at hdirectory
      cases hdirectory
    next hdirectory => exact ⟨h.unlink h.text_log, isPresent_unlink_self (by simpa using hdirectory)⟩
  next habsent => exact ⟨h, by simpa using habsent⟩

theorem Fresh.read (h : x.Fresh k d) :
    Yields (Engine.read k) d fun r d' ↦ match r with
      | .ok T => T = {} ∧ x.Fresh k d' ∧ d'.isPresent (logOf x.place) = false
      | .error _ => ¬ x.Free ∧ x.Fresh k d' := by
  obtain ⟨s, hs, hplain, hlog⟩ := h.session
  rw [yields_read_of_unlogged hs hplain hlog, yields_bind, h.yields_settle hplain]
  refine (h.settleJournal hplain).bind ?_ (by rintro e d' ⟨h, -⟩; cases h)
  rintro _ d₁ ⟨-, h₁⟩
  refine (h₁.findLog hplain).imp fun r d₂ hfound ↦ ?_
  cases r with
  | error e => exact hfound
  | ok u =>
    obtain ⟨h₂, habsent⟩ := hfound
    obtain ⟨t, ht, htplain, htlog⟩ := h₂.session
    have htables : tablesOf d₂ t = .ok {} := by
      rw [tablesOf, htlog, contentOf_eq htplain h₂.content]
      rfl
    dsimp only
    rw [yields_bind, yields_session, ht]
    dsimp only
    rw [yields_visible, htables]
    exact ⟨rfl, h₂, habsent⟩

theorem Fresh.writeFile (h : x.Fresh k d) (habsent : d.isPresent (logOf x.place) = false) (hs : s.IsPlain x)
    (i : Image) :
    Yields (Engine.writeFile s i) d fun r d' ↦ match r with
      | .ok _ => x.HoldsInFile [k] i.journal i.tables d' ∧
          (journalOf x.place).name.utf8ByteSize ≤ Path.maxComponentBytes
      | .error _ => ¬ x.Free ∧ x.Fresh k d' := by
  have hcontent : contentOf d s = .bytes [] := contentOf_eq hs h.content
  have hblank : (Content.bytes []).isBlank = true := rfl
  have hnode : (d.node? x.place).isNone = false := by
    rw [h.node]
    rfl
  unfold Engine.writeFile
  rw [yields_bind, yields_get]
  simp only [hs.place, yields_bind, yields_needName, yields_content, yields_ite, yields_throw, yields_set, hnode,
    hcontent, hblank, Bool.not_true, Bool.false_and, Bool.false_eq_true, if_false]
  split
  next hnone =>
    refine ⟨fun hfree ↦ ?_, h⟩
    rw [h.ways.directory, hfree.journal, Bool.false_or, decide_eq_true_eq] at hnone
    exact Nat.not_lt.2 hfree.short hnone
  next hroom =>
    simp only [Bool.or_eq_true, decide_eq_true_eq, not_or, Bool.not_eq_true, Nat.not_lt] at hroom
    rw [isContended_of_unlogged hs fun t ht hfile _ ↦ (h.unlogged t ht hfile).1, if_neg (by simp), hs.file]
    exact ⟨h.written habsent h.unlogged hroom.1 i, hroom.2⟩

/-- Where a journal mode was turned to, the file is as new, or has been written for a log. -/
def Turned (x : Site) (k : Nat) : JournalMode → Disk → Prop
  | .delete, d => x.Fresh k d
  | .wal, d => x.HoldsInFile [k] .wal {} d ∧ (journalOf x.place).name.utf8ByteSize ≤ Path.maxComponentBytes

theorem Fresh.turn (h : x.Fresh k d) (m : JournalMode) :
    Yields (Engine.turn k m) d fun r d' ↦ match r with
      | .ok _ => x.Turned k m d'
      | .error _ => ¬ x.Free ∧ x.Fresh k d' := by
  obtain ⟨s₀, hs₀, hplain₀, -⟩ := h.session
  unfold Engine.turn
  rw [yields_bind, yields_session, hs₀]
  simp only [hplain₀.users, Nat.le_refl, if_true]
  refine h.read.bind ?_ fun _ _ h₁ ↦ h₁
  intro _ d₁ ⟨_, h₁, _⟩
  obtain ⟨s₁, hs₁, hplain₁, hlog₁⟩ := h₁.session
  rw [yields_bind, yields_session, hs₁]
  cases m with
  | delete =>
    simp only [hplain₁.place, hlog₁]
    exact h₁
  | wal =>
    -- The mode is kept in the file, which is written for the first time here.
    have hcan : s₁.canLog = true := hplain₁.locksFile
    simp only [hplain₁.place, hlog₁, hcan, hplain₁.fixed, Bool.not_false, Bool.and_self, if_true]
    refine h₁.read.bind ?_ fun _ _ h₂ ↦ h₂
    intro T d₂ ⟨_, h₂, habsent⟩
    obtain ⟨s, hs, hplain, hlog⟩ := h₂.session
    have hcontent : contentOf d₂ s = .bytes [] := contentOf_eq hplain h₂.content
    rw [yields_bind, yields_session, hs]
    simp only [hlog, Option.isNone_none, if_true]
    unfold setJournal
    rw [yields_bind, yields_image, hcontent, image?_of_isBlank rfl]
    simp only [hplain.readOnly]
    refine (h₂.writeFile habsent hplain _).imp ?_
    intro r d' hd'
    cases r with
    | ok _ => exact hd'
    | error _ => exact hd'

theorem Fresh.write (h : x.Fresh k d) (habsent : d.isPresent (logOf x.place) = false) (T : Database) :
    Yields (Engine.write k (some T)) d fun r d' ↦ match r with
      | .ok _ => x.HoldsInFile [k] .delete T d' ∧
          (journalOf x.place).name.utf8ByteSize ≤ Path.maxComponentBytes
      | .error _ => ¬ x.Free ∧ x.Fresh k d' := by
  obtain ⟨s, hs, hplain, hlog⟩ := h.session
  have hcan : s.cannotWrite = false := by simp [Session.cannotWrite, hplain.readOnly, hplain.fixed, hlog]
  have hcontent : contentOf d s = .bytes [] := contentOf_eq hplain h.content
  unfold Engine.write
  rw [yields_bind, yields_session, hs]
  simp only [hcan, hlog, Bool.false_eq_true, if_false]
  rw [yields_bind, yields_image, hcontent, image?_of_isBlank rfl]
  exact h.writeFile habsent hplain _

theorem Fresh.leave (h : x.Fresh k d) : x.Untouched (d.leave k) := by
  obtain ⟨s, hs, hplain, hlog⟩ := h.session
  have hrest := h.toLodges.without k
  simp only [ne_eq, not_true_eq_false, decide_false, Bool.false_eq_true, not_false_eq_true,
    List.filter_cons_of_neg, List.filter_nil] at hrest
  rw [h.toLodges.leave_eq hs hplain, hlog]
  exact ⟨hrest, h.content⟩

end Site

end Gatekeeper
