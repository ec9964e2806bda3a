import Gatekeeper.Proofs.Database.Steps

namespace Gatekeeper.Engine

open Disk

variable {d d' : Disk} {s : Session} {p : Place} {number : Nat} {T T' : Database}

theorem contentOf_congr (h : d'.contents = d.contents) (s : Session) : contentOf d' s = contentOf d s := by
  simp only [contentOf, content?, h]

theorem tablesOf_congr (h : d'.contents = d.contents) (s : Session) : tablesOf d' s = tablesOf d s := by
  have hc : d'.content? = d.content? := by
    funext n
    simp only [content?, h]
  simp only [tablesOf, contentOf_congr h, hc]

theorem asksForLog_congr (h : d'.contents = d.contents) (s : Session) :
    AsksForLog d' s ↔ AsksForLog d s := by simp only [AsksForLog, contentOf_congr h]

/-- A disk on which at most names were taken away. -/
structure Trimmed (d d' : Disk) : Prop where
  contents : d'.contents = d.contents
  sessions : d'.sessions = d.sessions
  absent : ∀ q, d.isPresent q = false → d'.isPresent q = false

theorem Trimmed.refl (d : Disk) : Trimmed d d := ⟨rfl, rfl, fun _ ↦ id⟩

theorem Trimmed.trans {d'' : Disk} (h : Trimmed d d') (h' : Trimmed d' d'') : Trimmed d d'' :=
  ⟨h'.contents.trans h.contents, h'.sessions.trans h.sessions, fun q hq ↦ h'.absent q (h.absent q hq)⟩

theorem trimmed_unlink (d : Disk) (p : Place) : Trimmed d (d.unlink p) :=
  ⟨contents_unlink d p, sessions_unlink d p, fun _ ↦ isPresent_unlink⟩

theorem settleJournal_trimmed (s : Session) (p : Place) :
    Yields (settleJournal s p) d fun _ d' ↦ d.Extends d' ∧ Trimmed d d' := by
  refine (settleJournal_yields s p).imp fun r d' h ↦ ?_
  rcases h with rfl | rfl
  · exact ⟨.refl d', .refl d'⟩
  · exact ⟨extends_unlink d _, trimmed_unlink d _⟩

/-- What a session has to know of what lies beside its file: the index of its log, or that there is no
log and none is asked for. -/
structure Settled (d : Disk) (s : Session) : Prop where
  indexed : s.place.isSome → s.log.isSome → s.index ≠ .missing
  unlogged : ∀ p, s.place = some p → s.log = none → s.fixed = false →
    d.isPresent (logOf p) = false ∧ ¬ AsksForLog d s

theorem Settled.trimmed (h : Settled d s) (ht : Trimmed d d') : Settled d' s := by
  refine ⟨h.indexed, fun p hp hl hf ↦ ?_⟩
  obtain ⟨hpresent, hasks⟩ := h.unlogged p hp hl hf
  exact ⟨ht.absent _ hpresent, mt (asksForLog_congr ht.contents s).1 hasks⟩

theorem settled_of_log {i : LogIndex} (hl : s.log.isSome) (hi : s.index = i) (hne : i ≠ .missing) :
    Settled d s :=
  ⟨fun _ _ ↦ hi ▸ hne, fun _ _ h ↦ by simp [h] at hl⟩

theorem settle_yields (p : Place) (hd : d.WellFormed) (hs : s.LivesOn d) :
    Yields (settle s p) d fun r d' ↦ d.Extends d' ∧ (r = .ok () →
      (∃ n i, i ≠ .missing ∧
        d'.sessions = (d.setSession { s with log := some n, index := i }).sessions) ∨
      Trimmed d d' ∧ d'.isPresent (logOf p) = false ∧ ¬ AsksForLog d s) := by
  unfold settle
  simp only [yields_bind, yields_get, yields_ite, yields_throw]
  split
  · exact ⟨.refl d, fun h ↦ by cases h⟩
  · split
    · exact ⟨.refl d, fun h ↦ by cases h⟩
    · refine (settleJournal_trimmed s p).imp ?_
      rintro r d₁ ⟨hext, htrim⟩
      cases r with
      | error e => exact ⟨hext, fun h ↦ by cases h⟩
      | ok _ =>
        refine (findLog_yields p (hext.wellFormed hd) (hs.mono hext.length)).imp ?_
        rintro r d' ⟨hext', hr⟩
        refine ⟨hext.trans hext', fun h ↦ ?_⟩
        rcases hr h with ⟨n, i, hi, hsessions⟩ | ⟨hd', hpresent, hasks⟩
        · refine .inl ⟨n, i, hi, ?_⟩
          rw [hsessions, setSession, setSession, htrim.sessions]
        · refine .inr ⟨htrim.trans ?_, hpresent, mt (asksForLog_congr htrim.contents s).2 hasks⟩
          rcases hd' with rfl | rfl
          · exact .refl d'
          · exact trimmed_unlink d₁ _

theorem settle_trimmed (hpresent : d.isPresent (logOf p) = false) (hasks : ¬ AsksForLog d s) :
    Yields (settle s p) d fun _ d' ↦ d.Extends d' ∧ Trimmed d d' := by
  unfold settle
  simp only [yields_bind, yields_get, yields_ite, yields_throw]
  split
  · exact ⟨.refl d, .refl d⟩
  · split
    · exact ⟨.refl d, .refl d⟩
    · refine (settleJournal_trimmed s p).imp ?_
      rintro r d₁ ⟨hext, htrim⟩
      cases r with
      | error e => exact ⟨hext, htrim⟩
      | ok _ =>
        have hasks₁ : ¬ AsksForLog d₁ s := mt (asksForLog_congr htrim.contents s).1 hasks
        unfold findLog
        simp only [yields_bind, yields_get, yields_content, yields_ite, htrim.absent _ hpresent,
          yields_image, yields_pure]
        split
        · contradiction
        · split
          · split
            next i hi =>
              split
              next hj => exact absurd ⟨i, hi, by simpa using hj⟩ hasks₁
              · exact ⟨hext, htrim⟩
            · exact ⟨hext, htrim⟩
          · exact ⟨hext, htrim⟩

theorem session?_congr (h : d'.sessions = d.sessions) (number : Nat) :
    d'.session? number = d.session? number := by rw [session?, session?, h]

theorem read_settled (hd : d.WellFormed) :
    Yields (read number) d fun r d' ↦ d.Extends d' ∧ ∀ T, r = .ok T →
      ∃ t, d'.session? number = some t ∧ tablesOf d' t = .ok T ∧ Settled d' t ∧
        ∀ s, d.session? number = some s → t.fixed = s.fixed := by
  -- However settling went, what is left is to look at the file again.
  have hfinish {d' : Disk} {t : Session} (hext : d.Extends d') (ht : d'.session? number = some t)
      (hsettled : Settled d' t) (hfixed : ∀ s, d.session? number = some s → t.fixed = s.fixed) :
      Yields (session number >>= visible) d' fun r d' ↦ d.Extends d' ∧ ∀ T, r = .ok T →
        ∃ t, d'.session? number = some t ∧ tablesOf d' t = .ok T ∧ Settled d' t ∧
          ∀ s, d.session? number = some s → t.fixed = s.fixed := by
    rw [yields_bind, yields_session, ht]
    exact (yields_visible t).2 ⟨hext, fun T h ↦ ⟨t, ht, h, hsettled, hfixed⟩⟩
  unfold read
  rw [yields_bind, yields_session]
  split
  next s hs =>
    have hlives := hd.livesOn hs
    have hnumber := session?_number hs
    have hsame (u : Session) (hu : d.session? number = some u) : s.fixed = u.fixed :=
      congrArg Session.fixed (Option.some.inj (hs.symm.trans hu))
    have hlogged {d' : Disk} {n : Nat} {i : LogIndex} (hext : d.Extends d') (hi : i ≠ .missing)
        (h : d'.sessions = (d.setSession { s with log := some n, index := i }).sessions) :
        Yields (session number >>= visible) d' fun r d' ↦ d.Extends d' ∧ ∀ T, r = .ok T →
          ∃ t, d'.session? number = some t ∧ tablesOf d' t = .ok T ∧ Settled d' t ∧
            ∀ s, d.session? number = some s → t.fixed = s.fixed := by
      have ht := session?_setSession d { s with log := some n, index := i } hs
      rw [if_pos hnumber.symm, ← session?_congr h] at ht
      exact hfinish hext ht (settled_of_log rfl rfl hi) hsame
    dsimp only
    split
    next p hp =>
      split
      next hc =>
        simp only [Bool.and_eq_true, Option.isNone_iff_eq_none, Bool.not_eq_true'] at hc
        refine (settle_yields p hd hlives).bind (fun _ d' ⟨hext, hr⟩ ↦ ?_) fun e d' ⟨hext, _⟩ ↦ ⟨hext, nofun⟩
        rcases hr rfl with ⟨n, i, hi, h⟩ | ⟨htrim, hpresent, hasks⟩
        · exact hlogged hext hi h
        · refine hfinish hext ((session?_congr htrim.sessions number).trans hs) ⟨fun _ h ↦ ?_, ?_⟩ hsame
          · simp [hc.1] at h
          · intro q hq _ _
            cases hp.symm.trans hq
            exact ⟨hpresent, mt (asksForLog_congr htrim.contents s).1 hasks⟩
      next hc =>
        split
        next hm =>
          simp only [Bool.and_eq_true, beq_iff_eq] at hm
          obtain ⟨n, hn⟩ := Option.isSome_iff_exists.1 hm.1
          refine (openIndex_yields p hlives).bind (fun _ d' ⟨hext, hr⟩ ↦ ?_) fun e d' ⟨hext, _⟩ ↦ ⟨hext, nofun⟩
          obtain ⟨i, hi, h⟩ := hr rfl
          refine hlogged (n := n) hext hi ?_
          rw [h, ← hn]
        next hm =>
          refine hfinish (.refl d) hs ⟨fun _ hl hi ↦ hm (by simp [hl, hi]), fun q hq hl hf ↦ ?_⟩ hsame
          simp [hl, hf] at hc
    next hp =>
      exact hfinish (.refl d) hs ⟨fun h ↦ by simp [hp] at h, fun q hq ↦ by simp [hp] at hq⟩ hsame
  · exact ⟨.refl d, nofun⟩

theorem read_trimmed (hs : d.session? number = some s) (hsettled : Settled d s) :
    Yields (read number) d fun r d' ↦ d.Extends d' ∧ Trimmed d d' ∧
      (r = tablesOf d s ∨ ∃ e, r = .error e) := by
  have hfinish {d' : Disk} (hext : d.Extends d') (htrim : Trimmed d d') :
      Yields (session number >>= visible) d' fun r d' ↦ d.Extends d' ∧ Trimmed d d' ∧
        (r = tablesOf d s ∨ ∃ e, r = .error e) := by
    rw [yields_bind, yields_session, session?_congr htrim.sessions, hs]
    exact (yields_visible s).2 ⟨hext, htrim, .inl (tablesOf_congr htrim.contents s)⟩
  unfold read
  rw [yields_bind, yields_session, hs]
  dsimp only
  split
  next p hp =>
    split
    next hc =>
      simp only [Bool.and_eq_true, Option.isNone_iff_eq_none, Bool.not_eq_true'] at hc
      obtain ⟨hpresent, hasks⟩ := hsettled.unlogged p hp hc.1 hc.2
      exact (settle_trimmed hpresent hasks).bind (fun _ d' h ↦ hfinish h.1 h.2)
        fun e d' h ↦ ⟨h.1, h.2, .inr ⟨e, rfl⟩⟩
    next hc =>
      rw [if_neg]
      · exact hfinish (.refl d) (.refl d)
      · intro hm
        simp only [Bool.and_eq_true, beq_iff_eq] at hm
        exact hsettled.indexed (by simp [hp]) hm.1 hm.2
  · exact hfinish (.refl d) (.refl d)

theorem writeFile_yields (s : Session) (i : Image) :
    Yields (writeFile s i) d fun r d' ↦ match r with
      | .error _ => d' = d
      | .ok () => d' = d.setContent s.file (.image i) ∨
        ∃ p, s.place = some p ∧ d' = (d.unlink (journalOf p)).setContent s.file (.image i) := by
  unfold writeFile
  rw [yields_bind, yields_get]
  dsimp only
  split
  · exact .inl rfl
  next p hp =>
    simp only [yields_bind, yields_needName, yields_content, yields_ite, yields_throw, yields_set]
    repeat' split
    all_goals first | trivial | exact .inr ⟨p, hp, rfl⟩

/-- The database of a session that has read it: it is settled, and sees the tables. -/
structure Steady (d : Disk) (number : Nat) (T : Database) : Prop where
  wellFormed : d.WellFormed
  settled : ∃ s, d.session? number = some s ∧ tablesOf d s = .ok T ∧ Settled d s

theorem read_steady (number : Nat) (hd : d.WellFormed) :
    Yields (read number) d fun r d' ↦ d'.WellFormed ∧ ∀ T, r = .ok T → Steady d' number T :=
  (read_settled hd).imp fun _ _ ⟨hext, h⟩ ↦ ⟨hext.wellFormed hd, fun T hT ↦
    have ⟨s, hs, ht, hsettled, _⟩ := h T hT
    ⟨hext.wellFormed hd, s, hs, ht, hsettled⟩⟩

theorem Steady.read (h : Steady d number T) :
    Yields (read number) d fun r d' ↦ Steady d' number T ∧ ∀ T', r = .ok T' → T' = T := by
  obtain ⟨s, hs, ht, hsettled⟩ := h.settled
  refine (read_trimmed hs hsettled).imp fun r d' ⟨hext, htrim, hr⟩ ↦ ⟨⟨hext.wellFormed h.wellFormed, s,
    (session?_congr htrim.sessions number).trans hs, (tablesOf_congr htrim.contents s).trans ht,
    hsettled.trimmed htrim⟩, fun T' hT' ↦ ?_⟩
  rcases hr with hr | ⟨e, hr⟩
  · rw [hr, ht] at hT'
    exact (Except.ok.inj hT').symm
  · rw [hr] at hT'
    cases hT'

theorem contentOf_of_tables {i : Image} (h : (contentOf d s).image? = .ok i)
    (hkeys : i.tables.keys.isSome) : d.content? s.file = some (contentOf d s) ∧
      (contentOf d s).isBlank = false := by
  have hblank : (contentOf d s).isBlank = false := by
    cases hb : (contentOf d s).isBlank with
    | false => rfl
    | true =>
      rw [image?_of_isBlank hb] at h
      cases h
      cases hkeys
  refine ⟨?_, hblank⟩
  cases hc : d.content? s.file with
  | some c => simp [contentOf, hc]
  | none => simp [contentOf, hc, Content.isBlank, Database.Format.isBlank] at hblank

theorem image?_of_tablesOf (hl : s.log = none) (h : tablesOf d s = .ok T) :
    ∃ i, (contentOf d s).image? = .ok i ∧ i.tables = T := by
  simp only [tablesOf, hl, Option.bind_none] at h
  cases hi : (contentOf d s).image? with
  | error e => simp [hi, Except.map] at h
  | ok i => exact ⟨i, rfl, by simpa [hi, Except.map] using h⟩

/-- Whether nothing comes to be under the name of the log of a session when its file is written to. -/
def Unlinked (d : Disk) (s : Session) : Prop :=
  ∀ p c, s.place = some p → d.isPresent (logOf p) = false → (d.setContent s.file c).isPresent (logOf p) = false

theorem unlinked_of_tables {i : Image} (h : (contentOf d s).image? = .ok i) (hkeys : i.tables.keys.isSome) :
    Unlinked d s := by
  obtain ⟨hc, hblank⟩ := contentOf_of_tables h hkeys
  exact fun p c _ habsent ↦ isPresent_setContent c habsent hc (isEmpty_of_not_isBlank hblank)

theorem settled_setContent {i : Image} {j : Image} (hl : s.log = none) (hsettled : Settled d s)
    (hlt : s.file < d.contents.length) (hi : (contentOf d s).image? = .ok i) (hunlinked : Unlinked d s)
    (hj : j.journal = i.journal) :
    tablesOf (d.setContent s.file (.image j)) s = .ok j.tables ∧
      Settled (d.setContent s.file (.image j)) s := by
  have hcontent : contentOf (d.setContent s.file (.image j)) s = .image j := by
    rw [contentOf, content?_setContent d _ hlt, Option.getD_some]
  refine ⟨by rw [tablesOf, hl, hcontent]; rfl, ⟨hsettled.indexed, fun p hp _ hf ↦ ?_⟩⟩
  obtain ⟨hpresent, hasks⟩ := hsettled.unlogged p hp hl hf
  refine ⟨hunlinked p _ hp hpresent, ?_⟩
  rintro ⟨i', hi', hw⟩
  rw [hcontent] at hi'
  cases hi'
  exact hasks ⟨i, hi, hj ▸ hw⟩

theorem Steady.write_of_unlinked (h : Steady d number T)
    (hunlinked : ∀ s, d.session? number = some s → s.log = none → tablesOf d s = .ok T → Unlinked d s)
    (tables? : Option Database) :
    Yields (write number tables?) d fun r d' ↦ match r with
      | .ok () => Steady d' number (tables?.getD T)
      | .error _ => d' = d := by
  obtain ⟨s, hs, ht, hsettled⟩ := h.settled
  have hlives := h.wellFormed.livesOn hs
  unfold Engine.write
  rw [yields_bind, yields_session, hs]
  simp only [yields_bind, yields_ite, yields_throw]
  split
  · trivial
  next hwrite =>
    split
    · exact h
    next tables n hn =>
      have hlt : n < d.contents.length := hlives.log n hn
      simp only [yields_bind, yields_get, yields_set]
      refine ⟨h.wellFormed.setContent n _, s, hs, ?_, ?_⟩
      · simp only [tablesOf, hn, Option.bind_some, content?_setContent d _ hlt, Option.getD_some]
      · refine ⟨fun _ _ hi ↦ hwrite ?_, fun _ _ hl ↦ by simp [hl] at hn⟩
        simp [Session.cannotWrite, hn, hi]
    next tables hl =>
      obtain ⟨i, hi, rfl⟩ := image?_of_tablesOf hl ht
      rw [yields_bind, yields_image, hi]
      obtain ⟨ht', hs'⟩ := settled_setContent (j := { i with tables }) hl hsettled hlives.file hi
        (hunlinked s hs hl ht) rfl
      have hwell := h.wellFormed.setContent s.file (.image { i with tables })
      refine (writeFile_yields s _).imp fun r d' hr ↦ ?_
      cases r with
      | error e => exact hr
      | ok _ =>
        rcases hr with rfl | ⟨p, hp, rfl⟩
        · exact ⟨hwell, s, hs, ht', hs'⟩
        · rw [← unlink_setContent]
          have htrim := trimmed_unlink (d.setContent s.file (.image { i with tables })) (journalOf p)
          exact ⟨(extends_unlink _ _).wellFormed hwell, s, (session?_congr htrim.sessions number).trans hs,
            (tablesOf_congr htrim.contents s).trans ht', hs'.trimmed htrim⟩

theorem Steady.write (h : Steady d number T) (hkeys : T.keys.isSome) (tables? : Option Database) :
    Yields (write number tables?) d fun r d' ↦ match r with
      | .ok () => Steady d' number (tables?.getD T)
      | .error _ => d' = d := by
  refine h.write_of_unlinked (fun s hs hl ht ↦ ?_) tables?
  obtain ⟨i, hi, rfl⟩ := image?_of_tablesOf hl ht
  exact unlinked_of_tables hi hkeys

end Gatekeeper.Engine
