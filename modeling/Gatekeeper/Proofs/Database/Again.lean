import Gatekeeper.Proofs.Database.Opened
import Gatekeeper.Proofs.Disk.Places

namespace Gatekeeper

open Disk

variable {d d' : Disk}

namespace Engine

variable {s : Session} {p : Place} {number n : Nat} {T : Database} {c : Content}
  {r : Except EngineFault Database}

/-- What a session that has read tables has to get past to read them again: locks, and a journal. -/
def approach (s : Session) : Engine Unit := do
  match s.place with
  | some p =>
    if s.log.isNone && !s.fixed then
      if (← get).isShutOut s then throw .locked
      if s.locking == .byDirectory && ((← get).node? (lockOf p)).isSome then throw .locked
      settleJournal s p
  | none => return

theorem yields_approach {Q : Except EngineFault Unit → Disk → Prop} :
    Yields (approach s) d Q ↔ match s.place with
      | some p =>
        if s.log.isNone && !s.fixed then
          if d.isShutOut s then Q (.error .locked) d
          else if s.locking == .byDirectory && (d.node? (lockOf p)).isSome then Q (.error .locked) d
          else Yields (settleJournal s p) d Q
        else Q (.ok ()) d
      | none => Q (.ok ()) d := by
  unfold approach
  split
  · simp only [yields_bind, yields_get, yields_ite, yields_throw, yields_pure]
  · rfl

theorem yields_findLog_of_unlogged {i : Image} (hpresent : d.isPresent (logOf p) = false)
    (hi : (contentOf d s).image? = .ok i) (hasks : ¬ AsksForLog d s)
    {Q : Except EngineFault Unit → Disk → Prop} :
    Yields (findLog s p) d Q ↔ Q (.ok ()) d := by
  have hmode : (i.journal == .wal) = false := by
    refine Bool.eq_false_iff.2 fun h ↦ hasks ⟨i, hi, ?_⟩
    simpa using h
  unfold findLog
  simp only [yields_bind, yields_get, yields_content, yields_ite, yields_pure, yields_image, hpresent, hi,
    hmode, Bool.false_eq_true, if_false]
  split <;> rfl

theorem yields_settle_of_unlogged {i : Image} (hpresent : d.isPresent (logOf p) = false)
    (hi : (contentOf d s).image? = .ok i) (hasks : ¬ AsksForLog d s)
    {Q : Except EngineFault Unit → Disk → Prop} :
    Yields (settle s p) d Q ↔
      if d.isShutOut s then Q (.error .locked) d
      else if s.locking == .byDirectory && (d.node? (lockOf p)).isSome then Q (.error .locked) d
      else Yields (settleJournal s p) d Q := by
  have hjournal : Yields (settleJournal s p >>= fun _ ↦ findLog s p) d Q ↔ Yields (settleJournal s p) d Q := by
    rw [yields_bind]
    -- Settling a journal takes names away and nothing else, so the file asks for a log no more than before.
    refine (settleJournal_trimmed s p).congr fun r d₁ ⟨_, htrim⟩ ↦ ?_
    cases r with
    | error e => rfl
    | ok _ =>
      have hi₁ : (contentOf d₁ s).image? = .ok i := by rw [contentOf_congr htrim.contents, hi]
      exact yields_findLog_of_unlogged (htrim.absent _ hpresent) hi₁
        (mt (asksForLog_congr htrim.contents s).1 hasks)
  unfold settle
  simp only [yields_bind, yields_get, yields_ite, yields_throw]
  rw [← hjournal, yields_bind]

theorem Settled.yields_read (h : Settled d s) (hs : d.session? number = some s) (ht : tablesOf d s = .ok T)
    {Q : Except EngineFault Database → Disk → Prop} :
    Yields (read number) d Q ↔ Yields (approach s) d fun a d' ↦ Q (a.map fun _ ↦ T) d' := by
  have hfinish {d' : Disk} (htrim : Trimmed d d') :
      Yields (session number >>= visible) d' Q ↔ Q (.ok T) d' := by
    rw [yields_bind, yields_session, session?_congr htrim.sessions, hs]
    exact (yields_visible s).trans (by rw [tablesOf_congr htrim.contents, ht])
  unfold read
  rw [yields_bind, yields_session, hs, yields_approach]
  dsimp only
  cases hp : s.place with
  | none => exact hfinish (.refl d)
  | some p =>
    dsimp only
    split
    next hc =>
      simp only [Bool.and_eq_true, Option.isNone_iff_eq_none, Bool.not_eq_true'] at hc
      obtain ⟨hpresent, hasks⟩ := h.unlogged p hp hc.1 hc.2
      obtain ⟨i, hi, -⟩ := image?_of_tablesOf hc.1 ht
      refine Iff.trans ?_ (yields_settle_of_unlogged hpresent hi hasks)
      rw [yields_bind]
      refine (settle_trimmed hpresent hasks).congr fun a d' ⟨_, htrim⟩ ↦ ?_
      cases a with
      | error e => rfl
      | ok _ => exact hfinish htrim
    next hc =>
      rw [if_neg]
      · exact hfinish (.refl d)
      · intro hm
        simp only [Bool.and_eq_true, beq_iff_eq] at hm
        exact h.indexed (by simp [hp]) hm.1 hm.2

/-- A journal that could be dealt with is no trouble any more, and one that could not is left alone. -/
theorem settleJournal_again (s : Session) (p : Place) :
    Yields (settleJournal s p) d fun a d' ↦ match a with
      | .ok _ => Yields (settleJournal s p) d' fun a' _ ↦ a' = .ok ()
      | .error _ => d' = d := by
  have hcontent : contentOf (d.unlink (journalOf p)) s = contentOf d s :=
    contentOf_congr (contents_unlink d _) s
  rw [yields_settleJournal]
  split
  next hpresent =>
    split
    next hblank => split <;> simp [yields_settleJournal, hcontent, hblank]
    next hblank =>
      split
      · trivial
      next c hc =>
        split
        next hmarked =>
          have hnode : d.isDirectoryAt (journalOf p) = false := by
            obtain ⟨n, hn, -⟩ := Option.bind_eq_some_iff.1 hc
            exact isDirectoryAt_of_file (node?_of_fileAt? hn)
          split
          · trivial
          · split
            · trivial
            · simp [yields_settleJournal, isPresent_unlink_self hnode]
        next hmarked => simp [yields_settleJournal, hpresent, hblank, hc, hmarked]
  next hpresent => simp [yields_settleJournal, hpresent]

theorem approach_again (s : Session) :
    Yields (approach s) d fun a d' ↦ match a with
      | .ok _ => Yields (approach s) d' fun a' _ ↦ a' = .ok ()
      | .error _ => d' = d := by
  rw [yields_approach]
  cases hp : s.place with
  | none => simp [yields_approach, hp]
  | some p =>
    dsimp only
    split
    next hc =>
      split
      · trivial
      next hshut =>
        split
        · trivial
        next hlock =>
          refine ((settleJournal_again s p).and (settleJournal_yields s p)).imp fun a d' ⟨hagain, hd'⟩ ↦ ?_
          cases a with
          | error e => exact hagain
          | ok _ =>
            -- Nobody has come to lock the file in the meantime.
            have hopen : d'.isShutOut s = d.isShutOut s ∧
                (d.node? (lockOf p) = none → d'.node? (lockOf p) = none) := by
              rcases hd' with rfl | rfl
              · exact ⟨rfl, id⟩
              · exact ⟨by simp [isShutOut, othersOn], node?_unlink_of_none⟩
            have hlock' : ¬ (s.locking == .byDirectory && (d'.node? (lockOf p)).isSome) = true := by
              simp only [Bool.and_eq_true, Option.isSome_iff_ne_none] at hlock ⊢
              exact fun h ↦ hlock ⟨h.1, mt hopen.2 h.2⟩
            rw [yields_approach, hp]
            dsimp only
            rw [if_pos hc, hopen.1, if_neg hshut, if_neg hlock']
            exact hagain
    next hc => simp [yields_approach, hp, hc]

/-- Whether a file is none of those that a session may look at: its own, its log, and what has the name of a
journal or of a log. -/
structure IsElsewhere (n : Nat) (d : Disk) (s : Session) : Prop where
  file : s.file ≠ n
  opened : s.log ≠ some n
  journal : ∀ p, s.place = some p → d.node? (journalOf p) ≠ some (.file n)
  log : ∀ p, s.place = some p → d.node? (logOf p) ≠ some (.file n)

theorem IsElsewhere.unlink (h : IsElsewhere n d s) (p : Place) : IsElsewhere n (d.unlink p) s :=
  ⟨h.file, h.opened, fun q hq hn ↦ h.journal q hq (node?_unlink hn), fun q hq hn ↦ h.log q hq (node?_unlink hn)⟩

theorem isElsewhere_setContent {m : Nat} : IsElsewhere m (d.setContent n c) s ↔ IsElsewhere m d s :=
  ⟨fun h ↦ ⟨h.file, h.opened, h.journal, h.log⟩, fun h ↦ ⟨h.file, h.opened, h.journal, h.log⟩⟩

theorem contentOf_eq_of_content? (hfile : d'.content? s.file = d.content? s.file) :
    contentOf d' s = contentOf d s := by rw [contentOf, contentOf, hfile]

theorem tablesOf_eq_of_content? (hfile : d'.content? s.file = d.content? s.file)
    (hlog : ∀ m, s.log = some m → d'.content? m = d.content? m) : tablesOf d' s = tablesOf d s := by
  rw [tablesOf, tablesOf, contentOf_eq_of_content? hfile, Option.bind_congr hlog]

theorem Settled.of_content? (h : Settled d s) (hfile : d'.content? s.file = d.content? s.file)
    (hpresent : ∀ p, s.place = some p → d.isPresent (logOf p) = false → d'.isPresent (logOf p) = false) :
    Settled d' s := by
  refine ⟨h.indexed, fun p hp hl hf ↦ ?_⟩
  obtain ⟨habsent, hasks⟩ := h.unlogged p hp hl hf
  refine ⟨hpresent p hp habsent, ?_⟩
  rwa [AsksForLog, contentOf_eq_of_content? hfile]

theorem IsElsewhere.content? (h : IsElsewhere n d s) :
    (d.setContent n c).content? s.file = d.content? s.file ∧
      ∀ m, s.log = some m → (d.setContent n c).content? m = d.content? m := by
  refine ⟨content?_setContent_of_ne h.file, fun m hm ↦ content?_setContent_of_ne ?_⟩
  rintro rfl
  exact h.opened hm

theorem yields_approach_setContent (h : IsElsewhere n d s) {Q : Except EngineFault Unit → Disk → Prop} :
    Yields (approach s) (d.setContent n c) Q ↔ Yields (approach s) d fun a d' ↦ Q a (d'.setContent n c) := by
  rw [yields_approach, yields_approach]
  cases hp : s.place with
  | none => rfl
  | some p =>
    have hnode : (d.setContent n c).node? = d.node? := rfl
    have hjournal : ((d.setContent n c).fileAt? (journalOf p)).bind (d.setContent n c).content? =
        (d.fileAt? (journalOf p)).bind d.content? := by
      refine Option.bind_congr fun m hm ↦ content?_setContent_of_ne ?_
      rintro rfl
      exact h.journal p hp (node?_of_fileAt? hm)
    simp only [yields_settleJournal, isPresent_setContent_of_ne (h.journal p hp),
      contentOf_eq_of_content? h.content?.1, hnode, unlink_setContent, hjournal]
    rfl

/-- The database of a session that has read it, and what it answers to being read again. -/
structure Rests (d : Disk) (number : Nat) (T : Database) (r : Except EngineFault Database) : Prop
    extends Steady d number T where
  answer : Yields (read number) d fun r' _ ↦ r' = r

theorem Steady.rests (h : Steady d number T) : ∃ r, Rests d number T r := ⟨_, h, rfl⟩

theorem approach_yields (s : Session) : Yields (approach s) d fun _ d' ↦ d' = d ∨ ∃ q, d' = d.unlink q := by
  rw [yields_approach]
  have hrefl : d = d ∨ ∃ q, d = d.unlink q := .inl rfl
  split
  next p _ =>
    have hjournal : Yields (settleJournal s p) d fun _ d' ↦ d' = d ∨ ∃ q, d' = d.unlink q :=
      (settleJournal_yields s p).imp fun _ _ h ↦ h.imp_right fun h ↦ ⟨_, h⟩
    repeat' split
    all_goals assumption
  · exact hrefl

theorem Rests.read (h : Rests d number T r) : Yields (Engine.read number) d fun r' d' ↦
    r' = r ∧ Rests d' number T r ∧ (d' = d ∨ ∃ q, d' = d.unlink q) := by
  obtain ⟨s, hs, ht, hsettled⟩ := h.settled
  have hagain : Yields (Engine.read number) d fun r d' ↦
      Yields (Engine.read number) d' (fun r' _ ↦ r' = r) ∧ (d' = d ∨ ∃ q, d' = d.unlink q) := by
    rw [hsettled.yields_read hs ht]
    have hself : Yields (approach s) d fun a _ ↦ Yields (approach s) d fun a' _ ↦ a' = a := rfl
    -- After a failure the disk is the same; after a success there is nothing left to get past.
    refine (((approach_again s).and (approach_yields s)).and hself).imp ?_
    rintro a d' ⟨⟨hagain, hd'⟩, hsame⟩
    refine ⟨?_, hd'⟩
    cases a with
    | error e =>
      obtain rfl : d' = d := hagain
      rw [hsettled.yields_read hs ht]
      exact hsame.imp fun a _ ha ↦ congrArg _ ha
    | ok _ =>
      have htrim : Trimmed d d' := by
        rcases hd' with rfl | ⟨q, rfl⟩
        · exact .refl _
        · exact trimmed_unlink d q
      have hs' := (session?_congr htrim.sessions number).trans hs
      have ht' := (tablesOf_congr htrim.contents s).trans ht
      rw [(hsettled.trimmed htrim).yields_read hs' ht']
      exact Yields.imp hagain fun a _ ha ↦ congrArg _ ha
  refine ((h.toSteady.read.and h.answer).and hagain).imp ?_
  rintro r' d' ⟨⟨⟨hsteady, -⟩, rfl⟩, hanswer, hd'⟩
  exact ⟨rfl, ⟨hsteady, hanswer⟩, hd'⟩

theorem Settled.setContent (h : Settled d s) (hn : IsElsewhere n d s) : Settled (d.setContent n c) s :=
  h.of_content? hn.content?.1 fun p hp habsent ↦ (isPresent_setContent_of_ne (hn.log p hp)).trans habsent

theorem Rests.setContent (h : Rests d number T r) (hn : ∀ s, d.session? number = some s → IsElsewhere n d s)
    (c : Content) : Rests (d.setContent n c) number T r := by
  obtain ⟨s, hs, ht, hsettled⟩ := h.settled
  have hn := hn s hs
  obtain ⟨hfile, hlog⟩ := hn.content? (c := c)
  have ht' : tablesOf (d.setContent n c) s = .ok T := (tablesOf_eq_of_content? hfile hlog).trans ht
  have hsettled' := hsettled.setContent (c := c) hn
  refine ⟨⟨h.wellFormed.setContent n c, s, hs, ht', hsettled'⟩, ?_⟩
  rw [hsettled'.yields_read hs ht', yields_approach_setContent hn]
  exact (hsettled.yields_read hs ht).1 h.answer

theorem Steady.openAt? {q : Place} (h : Steady d number T) (hopen : d.openAt? q = some (n, d')) :
    Steady d' number T := by
  obtain ⟨s, hs, ht, hsettled⟩ := h.settled
  have hwell := (extends_openAt? hopen).1.wellFormed h.wellFormed
  simp only [Disk.openAt?] at hopen
  split at hopen
  · cases hopen
    exact h
  · cases hopen
  next hq =>
    split at hopen
    · obtain rfl : (d.createFile q (.bytes [])).2 = d' := congrArg Prod.snd (Option.some.inj hopen)
      have hlives := h.wellFormed.livesOn hs
      have hfile := content?_createFile (p := q) (c := .bytes []) hlives.file
      have hlog (m : Nat) (hm : s.log = some m) :=
        content?_createFile (p := q) (c := .bytes []) (hlives.log m hm)
      exact ⟨hwell, s, hs, (tablesOf_eq_of_content? hfile hlog).trans ht,
        hsettled.of_content? hfile fun p _ ↦ isPresent_createFile h.wellFormed⟩
    · cases hopen

/-- Whether the name of its log does not lead a session to its own file. -/
def LogApart (d : Disk) (s : Session) : Prop :=
  ∀ p, s.place = some p → d.node? (logOf p) ≠ some (.file s.file)

theorem LogApart.unlinked (h : LogApart d s) : Unlinked d s :=
  fun p _ hp habsent ↦ (isPresent_setContent_of_ne (h p hp)).trans habsent

theorem write_apart (hs : d.session? number = some s) (tables? : Option Database) :
    Yields (write number tables?) d fun _ d' ↦
      d'.session? number = some s ∧ (LogApart d' s → LogApart d s) := by
  have hrefl : d.session? number = some s ∧ (LogApart d s → LogApart d s) := ⟨hs, id⟩
  unfold Engine.write
  rw [yields_bind, yields_session, hs]
  simp only [yields_bind, yields_ite, yields_throw]
  split
  · exact hrefl
  · split
    · exact hrefl
    · exact hrefl
    next tables hl =>
      rw [yields_bind, yields_image]
      split
      · refine (writeFile_yields s _).imp fun r d' hr ↦ ?_
        cases r with
        | error e => exact hr ▸ hrefl
        | ok _ =>
          rcases hr with rfl | ⟨p, hp, rfl⟩
          · exact hrefl
          · refine ⟨(session?_congr (sessions_unlink d _) number).trans hs, fun h q hq ↦ ?_⟩
            cases hp.symm.trans hq
            have hlog := h p hp
            change (d.unlink (journalOf p)).node? (logOf p) ≠ _ at hlog
            rwa [node?_unlink_of_ne (text_journalOf_ne_logOf p).symm] at hlog
      · exact hrefl

end Engine

namespace Connection

variable {c : Connection}

theorem prepare_steady (hd : d.WellFormed) (h : c.prepare d = (.ok (), d'))
    (hapart : ∀ s, d'.session? c.session = some s → Engine.LogApart d' s) :
    ∃ T, Engine.Steady d' c.session T := by
  obtain ⟨T, d₁, hread, hd'⟩ := prepare_eq_ok h
  have hsteady := ((Engine.read_steady c.session hd).of_run hread).2 T rfl
  rcases hd' with ⟨-, rfl⟩ | ⟨tables, -, hwrite⟩
  · exact ⟨T, hsteady⟩
  · have hunlinked {s : Session} (hs : d₁.session? c.session = some s) : Engine.Unlinked d₁ s := by
      obtain ⟨hs', hback⟩ := (Engine.write_apart hs (some tables)).of_run hwrite
      exact (hback (hapart s hs')).unlinked
    exact ⟨tables, (hsteady.write_of_unlinked (fun s hs _ _ ↦ hunlinked hs) (some tables)).of_run hwrite⟩

theorem openDatabase_steady {settings : DatabaseSettings} (hd : d.WellFormed)
    (h : openDatabase d settings = (.opened c, d'))
    (hapart : ∀ s, d'.session? c.session = some s → Engine.LogApart d' s) :
    ∃ T, Engine.Steady d' c.session T := by
  obtain ⟨w, d₁, d₂, -, hmake, hconnect, hturn, hprepare⟩ := openDatabase_eq_opened h
  have hw := makeParent_extends d settings.path
  rw [hmake] at hw
  have hd₁ := hw.trans ((Engine.safe_connect settings.path w (hw.wellFormed hd)).of_run hconnect)
  have hd₂ := hd₁.trans ((Engine.safe_turn c.session settings.journalMode d₁ (hd₁.wellFormed hd)).of_run hturn)
  exact prepare_steady (hd₂.wellFormed hd) hprepare hapart

def found (r : Except EngineFault Database) (i : Identity) : Except StoreError Key :=
  match r with
  | .error e => .error (DatabaseError.engine e).toStoreError
  | .ok tables => tables.lookup i

theorem lookup_eq_found (c : Connection) (d : Disk) (i : Identity) :
    c.lookup d i = (found ((Engine.read c.session).run d).1 i, ((Engine.read c.session).run d).2) := by
  unfold lookup found
  split
  next h => rw [h]
  next h => rw [h]

theorem lookup_rests {T : Database} {r : Except EngineFault Database} (h : Engine.Rests d c.session T r)
    (i : Identity) : (c.lookup d i).1 = found r i ∧ Engine.Rests (c.lookup d i).2 c.session T r ∧
      ((c.lookup d i).2 = d ∨ ∃ q, (c.lookup d i).2 = d.unlink q) := by
  rcases hrun : (Engine.read c.session).run d with ⟨a, d'⟩
  obtain ⟨rfl, hkept⟩ := h.read.of_run hrun
  rw [lookup_eq_found, hrun]
  exact ⟨rfl, hkept⟩

end Connection

end Gatekeeper
