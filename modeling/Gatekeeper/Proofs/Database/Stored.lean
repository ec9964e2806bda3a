import Gatekeeper.Database.Layout
import Gatekeeper.Proofs.Database.Opened
import Gatekeeper.Proofs.Disk.Places

namespace Gatekeeper

/-- The database in a file beside which there may be a log; a file without pages has no use for one. -/
def Content.under (c : Content) : Option Database → Except EngineFault Image
  | some tables => if c.isBlank then .ok {} else .ok { c.image?.toOption.getD { journal := .wal } with tables }
  | none => c.image?

namespace Database.Format

end Database.Format

namespace Disk

def logAt? (d : Disk) (p : Place) : Option Database :=
  match d.foundAt? (logOf p) with
  | some (.log tables) => some tables
  | _ => none

/-- The database at a place; where there is no file, it is that of an empty one. -/
def storedAt (d : Disk) (p : Place) : Except EngineFault Image :=
  ((d.foundAt? p).getD (.bytes [])).under (d.logAt? p)

def rowsAt (d : Disk) (p : Place) : Except EngineFault KeyTable :=
  (d.storedAt p).map fun i ↦ i.tables.keys.getD ∅

/-- A well-formed disk on which no file has two names. -/
structure Orderly (d : Disk) : Prop where
  wellFormed : d.WellFormed
  single : ∀ q r n, d.fileAt? q = some n → d.fileAt? r = some n → q.text = r.text

/-- Whether a disk came from another one without a change to the file at a place and to its log. -/
structure Bypasses (p : Place) (d d' : Disk) : Prop where
  file : d'.fileAt? p = d.fileAt? p
  log : d'.fileAt? (logOf p) = d.fileAt? (logOf p)
  content : ∀ n, d.fileAt? p = some n ∨ d.fileAt? (logOf p) = some n → d'.content? n = d.content? n

variable {d d' d'' : Disk} {p q r : Place} {c : Content} {s : Session} {n number : Nat} {T : Database}

theorem Bypasses.refl (p : Place) (d : Disk) : Bypasses p d d := ⟨rfl, rfl, fun _ _ ↦ rfl⟩

theorem Bypasses.trans (h : Bypasses p d d') (h' : Bypasses p d' d'') : Bypasses p d d'' where
  file := h'.file.trans h.file
  log := h'.log.trans h.log
  content := by
    intro n hn
    have hn' : d'.fileAt? p = some n ∨ d'.fileAt? (logOf p) = some n := by rwa [h.file, h.log]
    exact (h'.content n hn').trans (h.content n hn)

theorem Bypasses.logAt? (h : Bypasses p d d') : d'.logAt? p = d.logAt? p := by
  have hfound : d'.foundAt? (logOf p) = d.foundAt? (logOf p) := by
    rw [foundAt?, foundAt?, h.log]
    exact Option.bind_congr fun n hn ↦ h.content n (.inr hn)
  rw [Disk.logAt?, Disk.logAt?, hfound]

theorem Bypasses.storedAt (h : Bypasses p d d') : d'.storedAt p = d.storedAt p := by
  have hfound : d'.foundAt? p = d.foundAt? p := by
    rw [foundAt?, foundAt?, h.file]
    exact Option.bind_congr fun n hn ↦ h.content n (.inl hn)
  rw [Disk.storedAt, Disk.storedAt, hfound, h.logAt?]

theorem Content.under_of_isBlank {c : Content} (h : c.isBlank = true) (log? : Option Database) :
    c.under log? = .ok {} := by
  cases log? with
  | none => exact Engine.image?_of_isBlank h
  | some tables => rw [Content.under, if_pos h]

theorem fileAt?_unlink_of_ne (h : p.text ≠ q.text) : (d.unlink q).fileAt? p = d.fileAt? p := by
  rw [fileAt?, fileAt?, node?_unlink_of_ne h]

theorem fileAt?_of_unlink (h : (d.unlink q).fileAt? p = some n) : d.fileAt? p = some n :=
  fileAt?_of_node? (node?_unlink (node?_of_fileAt? h))

theorem fileAt?_createFile_of_ne (h : p.text ≠ q.text) : (d.createFile q c).2.fileAt? p = d.fileAt? p := by
  rw [fileAt?, fileAt?, node?_createFile_of_ne h]

theorem ne_nil_of_fileAt? (h : d.fileAt? p = some n) : p ≠ [] := ne_nil_of_file (node?_of_fileAt? h)

theorem WellFormed.lt_of_fileAt? (hd : d.WellFormed) (h : d.fileAt? p = some n) : n < d.contents.length :=
  hd.lt_of_node? (node?_of_fileAt? h)

theorem Orderly.fileAt?_ne (hd : d.Orderly) (h : d.fileAt? q = some n) (htext : r.text ≠ q.text) :
    d.fileAt? r ≠ some n := fun hr ↦ htext (hd.single r q n hr h)

theorem orderly_empty : ({} : Disk).Orderly := ⟨wellFormed_empty, fun q r n hq ↦ by simp [fileAt?, node?] at hq⟩

theorem Orderly.of_names (hd : d.Orderly) (hwell : d.WellFormed → d'.WellFormed)
    (hnames : ∀ q n, d'.fileAt? q = some n → d.fileAt? q = some n) : d'.Orderly where
  wellFormed := hwell hd.wellFormed
  single := fun q r n hq hr ↦ hd.single q r n (hnames q n hq) (hnames r n hr)

theorem Orderly.unlink (hd : d.Orderly) (q : Place) : (d.unlink q).Orderly :=
  hd.of_names (extends_unlink d q).wellFormed fun _ _ ↦ fileAt?_of_unlink

theorem Orderly.setContent (hd : d.Orderly) (n : Nat) (c : Content) : (d.setContent n c).Orderly :=
  hd.of_names (·.setContent n c) fun _ _ ↦ id

theorem Orderly.setSession (hd : d.Orderly) (hs : s.LivesOn d) : (d.setSession s).Orderly :=
  hd.of_names (extends_setSession d hs).wellFormed fun _ _ ↦ id

theorem Orderly.createFile (hd : d.Orderly) (q : Place) (c : Content) : (d.createFile q c).2.Orderly where
  wellFormed := hd.wellFormed.createFile q c
  single := by
    -- A name of the new file is its first one, and any other name was there before.
    have hnames (r : Place) (n : Nat) (h : (d.createFile q c).2.fileAt? r = some n) :
        r.text = q.text ∧ n = d.contents.length ∨ d.fileAt? r = some n ∧ n < d.contents.length := by
      by_cases htext : r.text = q.text
      · by_cases hn : n < d.contents.length
        · exact .inr ⟨fileAt?_of_node? (node?_of_createFile hn (node?_of_fileAt? h)), hn⟩
        · have hlt := (hd.wellFormed.createFile q c).lt_of_fileAt? h
          have hlength : (d.createFile q c).2.contents.length = d.contents.length + 1 := length_addContent d c
          exact .inl ⟨htext, by omega⟩
      · rw [fileAt?_createFile_of_ne htext] at h
        exact .inr ⟨h, hd.wellFormed.lt_of_fileAt? h⟩
    intro r t n hr ht
    rcases hnames r n hr with ⟨hr', hn⟩ | ⟨hr', hn⟩
    · rcases hnames t n ht with ⟨ht', -⟩ | ⟨-, hn'⟩
      · exact hr'.trans ht'.symm
      · omega
    · rcases hnames t n ht with ⟨-, hn'⟩ | ⟨ht', -⟩
      · omega
      · exact hd.single r t n hr' ht'

theorem Orderly.openAt? (hd : d.Orderly) (h : d.openAt? q = some (n, d')) : d'.Orderly := by
  rcases openAt?_cases h with ⟨-, rfl⟩ | ⟨-, -, rfl⟩
  · exact hd
  · exact hd.createFile q _

theorem bypasses_unlink (d : Disk) (hp : p.text ≠ q.text) (hlog : (logOf p).text ≠ q.text) :
    Bypasses p d (d.unlink q) where
  file := fileAt?_unlink_of_ne hp
  log := fileAt?_unlink_of_ne hlog
  content := by
    intro n _
    rw [content?, content?, contents_unlink]

theorem Orderly.bypasses_setContent (hd : d.Orderly) (hq : d.fileAt? q = some n) (hp : p.text ≠ q.text)
    (hlog : (logOf p).text ≠ q.text) (c : Content) : Bypasses p d (d.setContent n c) where
  file := rfl
  log := rfl
  content := by
    intro m hm
    apply content?_setContent_of_ne
    rintro rfl
    rcases hm with hm | hm
    · exact hd.fileAt?_ne hq hp hm
    · exact hd.fileAt?_ne hq hlog hm

theorem Orderly.bypasses_createFile (hd : d.Orderly) (hp : p.text ≠ q.text) (hlog : (logOf p).text ≠ q.text)
    (c : Content) : Bypasses p d (d.createFile q c).2 where
  file := fileAt?_createFile_of_ne hp
  log := fileAt?_createFile_of_ne hlog
  content := by
    intro n hn
    apply content?_createFile
    rcases hn with hn | hn
    · exact hd.wellFormed.lt_of_fileAt? hn
    · exact hd.wellFormed.lt_of_fileAt? hn

end Disk

open Disk Engine

variable {d d' : Disk} {p q : Place} {s t : Session} {n number : Nat} {T : Database} {i : LogIndex}

/-- Whether a session works on the file at a place, and on the log beside it once it has opened one. -/
structure Session.WorksOn (s : Session) (p : Place) (d : Disk) : Prop where
  place : s.place = some p
  file : d.fileAt? p = some s.file
  log : ∀ n, s.log = some n → d.fileAt? (logOf p) = some n
  paged : s.log.isSome → (contentOf d s).isBlank = false

structure Session.WorksApart (s : Session) (d : Disk) : Prop where
  place : s.place = none
  log : s.log = none
  nameless : ∀ q, d.fileAt? q ≠ some s.file

namespace Session.WorksOn

theorem ne_nil (h : s.WorksOn p d) : p ≠ [] := ne_nil_of_fileAt? h.file

theorem text_journal (h : s.WorksOn p d) : p.text ≠ (journalOf p).text :=
  (Place.text_beside_ne_self h.ne_nil (by decide)).symm

theorem text_log (h : s.WorksOn p d) : p.text ≠ (logOf p).text :=
  (Place.text_beside_ne_self h.ne_nil (by decide)).symm

theorem text_index (h : s.WorksOn p d) : p.text ≠ (indexOf p).text :=
  (Place.text_beside_ne_self h.ne_nil (by decide)).symm

theorem livesOn (h : s.WorksOn p d) (hd : d.Orderly) : s.LivesOn d where
  file := hd.wellFormed.lt_of_fileAt? h.file
  log := fun n hn ↦ hd.wellFormed.lt_of_fileAt? (h.log n hn)

theorem foundAt? (h : s.WorksOn p d) : (d.foundAt? p).getD (.bytes []) = contentOf d s := by
  rw [Disk.foundAt?, h.file]
  rfl

theorem storedAt (h : s.WorksOn p d) : d.storedAt p = (contentOf d s).under (d.logAt? p) := by
  rw [Disk.storedAt, h.foundAt?]

theorem bypasses (h : s.WorksOn p d) (hd' : Bypasses p d d') : s.WorksOn p d' where
  place := h.place
  file := hd'.file.trans h.file
  log := fun n hn ↦ hd'.log.trans (h.log n hn)
  paged := by
    intro hlog
    rw [contentOf, hd'.content s.file (.inl h.file)]
    exact h.paged hlog

theorem index (h : s.WorksOn p d) (i : LogIndex) : ({ s with index := i } : Session).WorksOn p d :=
  ⟨h.place, h.file, h.log, h.paged⟩

theorem foundAt?_logOf (h : s.WorksOn p d) (hlog : s.log = some n) : d.foundAt? (logOf p) = d.content? n := by
  rw [Disk.foundAt?, h.log n hlog, Option.bind_some]

theorem logAt?_of_log (h : s.WorksOn p d) (hlog : s.log = some n) (hc : d.content? n = some (.log T)) :
    d.logAt? p = some T := by
  rw [logAt?, h.foundAt?_logOf hlog, hc]

theorem logAt?_of_ne_log (h : s.WorksOn p d) (hlog : s.log = some n) (hc : ∀ T, d.content? n ≠ some (.log T)) :
    d.logAt? p = none := by
  rw [logAt?, h.foundAt?_logOf hlog]
  split
  next T hT => exact absurd hT (hc T)
  · rfl

end Session.WorksOn

theorem Disk.logAt?_of_absent (h : d.isPresent (logOf p) = false) : d.logAt? p = none := by
  rw [isPresent] at h
  rw [logAt?, foundAt?, fileAt?]
  cases hnode : d.node? (logOf p) with
  | none => rfl
  | some e =>
    cases e with
    | directory => rfl
    | file n =>
      simp only [hnode] at h
      simp only [Option.bind_some]
      split
      next tables hc =>
        rw [hc] at h
        cases h
      · rfl

/-- A session that has settled sees what is stored. -/
theorem Session.WorksOn.storedAt_of_settled (h : s.WorksOn p d) (hsettled : Settled d s) (hfixed : s.fixed = false)
    (ht : tablesOf d s = .ok T) : ∃ i, d.storedAt p = .ok i ∧ i.tables = T := by
  rw [h.storedAt]
  cases hlog : s.log with
  | none =>
    rw [logAt?_of_absent (hsettled.unlogged p h.place hlog hfixed).1]
    exact image?_of_tablesOf hlog ht
  | some n =>
    rw [tablesOf, hlog, Option.bind_some] at ht
    split at ht
    next tables hc =>
      cases ht
      rw [h.logAt?_of_log hlog hc, Content.under, h.paged (by rw [hlog]; rfl), if_neg (by decide)]
      exact ⟨_, rfl, rfl⟩
    next hc =>
      rw [h.logAt?_of_ne_log hlog hc]
      cases hi : (contentOf d s).image? with
      | error e => simp [hi, Except.map] at ht
      | ok i => exact ⟨i, hi, by simpa [hi, Except.map] using ht⟩

namespace Engine

/-- Whether a session is at work on what is stored at a place, or on something apart. -/
structure Attends (number : Nat) (p : Place) (d : Disk) : Prop where
  orderly : d.Orderly
  session : ∃ s, d.session? number = some s ∧ (s.WorksOn p d ∨ s.WorksApart d)

def Spares (number : Nat) (p : Place) (d d' : Disk) : Prop :=
  Attends number p d' ∧ d'.storedAt p = d.storedAt p

theorem Attends.spares (h : Attends number p d) : Spares number p d d := ⟨h, rfl⟩

theorem Spares.trans {d'' : Disk} (h : Spares number p d d') (h' : Spares number p d' d'') :
    Spares number p d d'' := ⟨h'.1, h'.2.trans h.2⟩

theorem session?_of_setSession (hs : d.session? number = some s) (ht : t.number = s.number)
    (h : d'.sessions = (d.setSession t).sessions) : d'.session? number = some t := by
  rw [session?_congr h, session?_setSession d t hs, if_pos (ht.trans (session?_number hs)).symm]

theorem settleJournal_bypasses (hd : d.Orderly) (hs : s.WorksOn p d) :
    Yields (settleJournal s p) d fun _ d' ↦ d'.Orderly ∧ d'.sessions = d.sessions ∧ Bypasses p d d' := by
  refine (settleJournal_yields s p).imp ?_
  intro r d' hd'
  rcases hd' with rfl | rfl
  · exact ⟨hd, rfl, .refl p d'⟩
  · exact ⟨hd.unlink _, sessions_unlink d _, bypasses_unlink d hs.text_journal (text_journalOf_ne_logOf p).symm⟩

theorem openIndex_bypasses (hd : d.Orderly) (hs : s.WorksOn p d) :
    Yields (openIndex s p) d fun _ d' ↦ d'.Orderly ∧ Bypasses p d d' ∧
      (d' = d ∨ ∃ i, d'.sessions = (d.setSession { s with index := i }).sessions) := by
  have hlives := hs.livesOn hd
  have hset (i : LogIndex) : (d.setSession { s with index := i }).Orderly :=
    hd.setSession ⟨hlives.file, hlives.log⟩
  have hsame (i : LogIndex) : Bypasses p d (d.setSession { s with index := i }) := ⟨rfl, rfl, fun _ _ ↦ rfl⟩
  have hkept (i : LogIndex) : (d.setSession { s with index := i }).Orderly ∧
      Bypasses p d (d.setSession { s with index := i }) ∧ (d.setSession { s with index := i } = d ∨
        ∃ j, (d.setSession { s with index := i }).sessions = (d.setSession { s with index := j }).sessions) :=
    ⟨hset i, hsame i, .inr ⟨i, rfl⟩⟩
  unfold openIndex
  simp only [yields_bind, yields_get]
  split
  · exact hkept _
  · rw [yields_ite]
    split
    · exact hkept _
    · split
      · exact hkept _
      · exact hkept _
      next n hnode _ =>
        have hindex : (d.setSession { s with index := .writable }).fileAt? (indexOf p) = some n :=
          fileAt?_of_node? hnode
        exact ⟨(hset _).setContent n _, (hsame _).trans
          ((hset _).bypasses_setContent hindex hs.text_index (text_logOf_ne_indexOf p) _), .inr ⟨_, rfl⟩⟩
      · exact ⟨hd, .refl p d, .inl rfl⟩
      · exact ⟨(hset _).createFile _ _, (hsame _).trans
          ((hset _).bypasses_createFile hs.text_index (text_logOf_ne_indexOf p) _), .inr ⟨_, rfl⟩⟩

theorem openIndex_spares (hd : d.Orderly) (hs : s.WorksOn p d) (hnumber : d.session? number = some s) :
    Yields (openIndex s p) d fun _ d' ↦ Spares number p d d' := by
  refine (openIndex_bypasses hd hs).imp ?_
  intro r d' ⟨hd', hpast, hsessions⟩
  refine ⟨⟨hd', ?_⟩, hpast.storedAt⟩
  rcases hsessions with rfl | ⟨i, hsessions⟩
  · exact ⟨s, hnumber, .inl hs⟩
  · have hnumber' := session?_of_setSession (t := { s with index := i }) hnumber rfl hsessions
    exact ⟨_, hnumber', .inl ((hs.index i).bypasses hpast)⟩

theorem openAt?_log (hd : d.Orderly) (hs : s.WorksOn p d) (hpaged : (contentOf d s).isBlank = false)
    (h : d.openAt? (logOf p) = some (n, d')) :
    ({ s with log := some n } : Session).WorksOn p d' ∧ d'.storedAt p = d.storedAt p := by
  rcases openAt?_cases h with ⟨hnode, rfl⟩ | ⟨hnode, rfl, rfl⟩
  · exact ⟨⟨hs.place, hs.file, fun m hm ↦ Option.some.inj hm ▸ fileAt?_of_node? hnode, fun _ ↦ hpaged⟩, rfl⟩
  · have hfile : (d.createFile (logOf p) (.bytes [])).2.fileAt? p = some s.file :=
      (fileAt?_createFile_of_ne hs.text_log).trans hs.file
    have hlog : (d.createFile (logOf p) (.bytes [])).2.fileAt? (logOf p) = some d.contents.length :=
      fileAt?_of_node? (node?_createFile_self (ne_nil_of_none hnode))
    have hcontent : contentOf (d.createFile (logOf p) (.bytes [])).2 s = contentOf d s := by
      rw [contentOf, content?_createFile (hs.livesOn hd).file, contentOf]
    have hworks : ({ s with log := some d.contents.length } : Session).WorksOn p
        (d.createFile (logOf p) (.bytes [])).2 := by
      refine ⟨hs.place, hfile, fun m hm ↦ Option.some.inj hm ▸ hlog, fun _ ↦ ?_⟩
      rw [← hpaged, ← hcontent]
      rfl
    refine ⟨hworks, ?_⟩
    have hnew : (d.createFile (logOf p) (.bytes [])).2.logAt? p = none := by
      refine hworks.logAt?_of_ne_log rfl fun T hT ↦ ?_
      rw [content?_createFile_self] at hT
      cases hT
    rw [hworks.storedAt, hs.storedAt, hnew, logAt?_of_absent (isPresent_of_none hnode), ← hcontent]
    rfl

theorem openLog_spares (hd : d.Orderly) (hs : s.WorksOn p d) (hnumber : d.session? number = some s)
    (hpaged : (contentOf d s).isBlank = false) :
    Yields (openLog s p) d fun _ d' ↦ Spares number p d d' := by
  have hsame : Spares number p d d := Attends.spares ⟨hd, s, hnumber, .inl hs⟩
  unfold openLog
  simp only [yields_bind, yields_ite, yields_throw, yields_needName, yields_get]
  split
  · exact hsame
  · split
    · exact hsame
    · split
      · exact hsame
      next n d₁ hopen =>
        obtain ⟨hworks, hstored⟩ := openAt?_log hd hs hpaged hopen
        have hd₁ := hd.openAt? hopen
        have hset : (d₁.setSession { s with log := some n }).Orderly := hd₁.setSession (hworks.livesOn hd₁)
        have hnumber₁ : (d₁.setSession { s with log := some n }).session? number =
            some { s with log := some n } := by
          rw [← session?_congr (sessions_openAt? hopen)] at hnumber
          exact session?_of_setSession (t := { s with log := some n }) hnumber rfl rfl
        simp only [yields_bind, yields_set]
        refine (openIndex_spares hset ?_ hnumber₁).imp fun _ _ h ↦ Spares.trans ⟨⟨hset, ?_⟩, hstored⟩ h
        · exact hworks.bypasses ⟨rfl, rfl, fun _ _ ↦ rfl⟩
        · exact ⟨_, hnumber₁, .inl (hworks.bypasses ⟨rfl, rfl, fun _ _ ↦ rfl⟩)⟩

theorem findLog_spares (hd : d.Orderly) (hs : s.WorksOn p d) (hnumber : d.session? number = some s)
    (hlog : s.log = none) : Yields (findLog s p) d fun _ d' ↦ Spares number p d d' := by
  have hsame : Spares number p d d := Attends.spares ⟨hd, s, hnumber, .inl hs⟩
  unfold findLog
  simp only [yields_bind, yields_get, yields_content, yields_ite, yields_throw, yields_set, yields_pure,
    yields_image]
  split
  · split
    next hpaged => exact openLog_spares hd hs hnumber (by simpa using hpaged)
    next hblank =>
      split
      · exact hsame
      · -- A log beside a file without pages is taken away; it did not count.
        have hworks : s.WorksOn p (d.unlink (logOf p)) := by
          refine ⟨hs.place, (fileAt?_unlink_of_ne hs.text_log).trans hs.file, fun n hn ↦ ?_, fun h ↦ ?_⟩
          · simp [hlog] at hn
          · simp [hlog] at h
        have hcontent : contentOf (d.unlink (logOf p)) s = contentOf d s := contentOf_congr (contents_unlink d _) s
        have hblank' : (contentOf d s).isBlank = true := by simpa using hblank
        refine ⟨⟨hd.unlink _, s, ?_, .inl hworks⟩, ?_⟩
        · rw [session?_congr (sessions_unlink d _), hnumber]
        · rw [hworks.storedAt, hs.storedAt, hcontent, Content.under_of_isBlank hblank',
            Content.under_of_isBlank hblank']
  · split
    next hpaged =>
      split
      · split
        · exact openLog_spares hd hs hnumber (by simpa using hpaged)
        · exact hsame
      · exact hsame
    · exact hsame

theorem settle_spares (hd : d.Orderly) (hs : s.WorksOn p d) (hnumber : d.session? number = some s)
    (hlog : s.log = none) : Yields (settle s p) d fun _ d' ↦ Spares number p d d' := by
  have hsame : Spares number p d d := Attends.spares ⟨hd, s, hnumber, .inl hs⟩
  unfold settle
  simp only [yields_bind, yields_get, yields_ite, yields_throw]
  split
  · exact hsame
  · split
    · exact hsame
    · refine (settleJournal_bypasses hd hs).imp ?_
      intro r d₁ hbypasses
      obtain ⟨hd₁, hsessions, hpast⟩ := hbypasses
      have hnumber₁ : d₁.session? number = some s := (session?_congr hsessions number).trans hnumber
      have hworks := hs.bypasses hpast
      have hfirst : Spares number p d d₁ := ⟨⟨hd₁, s, hnumber₁, .inl hworks⟩, hpast.storedAt⟩
      cases r with
      | error e => exact hfirst
      | ok _ => exact (findLog_spares hd₁ hworks hnumber₁ hlog).imp fun _ _ h ↦ hfirst.trans h

theorem look_spares (h : Attends number p d) :
    Yields (session number >>= visible) d fun _ d' ↦ Spares number p d d' := by
  rw [yields_bind, yields_session]
  split
  · exact (yields_visible _).2 h.spares
  · exact h.spares

theorem read_spares (h : Attends number p d) :
    Yields (read number) d fun _ d' ↦ Spares number p d d' := by
  obtain ⟨s, hs, hworks⟩ := h.session
  have hthen {m : Engine Unit} (hm : Yields m d fun _ d' ↦ Spares number p d d') :
      Yields (m >>= fun _ ↦ session number >>= visible) d fun _ d' ↦ Spares number p d d' := by
    apply hm.bind
    · intro _ d' hd'
      exact (look_spares hd'.1).imp fun _ _ h ↦ hd'.trans h
    · intro _ _ hd'
      exact hd'
  unfold read
  rw [yields_bind, yields_session, hs]
  rcases hworks with hworks | hapart
  · simp only [hworks.place]
    split
    next hc =>
      simp only [Bool.and_eq_true, Option.isNone_iff_eq_none] at hc
      exact hthen (settle_spares h.orderly hworks hs hc.1)
    · split
      · exact hthen (openIndex_spares h.orderly hworks hs)
      · exact look_spares h
  · simp only [hapart.place]
    exact look_spares h

theorem spares_of_read {r : Except EngineFault Database} (h : Attends number p d)
    (hrun : (read number).run d = (r, d')) :
    Spares number p d d' ∧ ∀ T, r = .ok T → Steady d' number T := by
  obtain ⟨hspares, -, hsteady⟩ := ((read_spares h).and (read_steady number h.orderly.wellFormed)).of_run hrun
  exact ⟨hspares, hsteady⟩

end Engine

end Gatekeeper
