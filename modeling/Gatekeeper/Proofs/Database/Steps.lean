import Gatekeeper.Database.Opening
import Gatekeeper.Proofs.Disk.WellFormed

namespace Gatekeeper.Engine

open Disk

variable {α β : Type}

def Yields (m : Engine α) (d : Disk) (Q : Except EngineFault α → Disk → Prop) : Prop :=
  Q (m.run d).1 (m.run d).2

variable {d : Disk} {Q : Except EngineFault α → Disk → Prop}

theorem Yields.imp {m : Engine α} {R : Except EngineFault α → Disk → Prop} (h : Yields m d Q)
    (hi : ∀ r d', Q r d' → R r d') : Yields m d R := hi _ _ h

theorem Yields.of_run {m : Engine α} {r : Except EngineFault α} {d' : Disk} (h : Yields m d Q)
    (hrun : m.run d = (r, d')) : Q r d' := by
  rw [Yields, hrun] at h
  exact h

theorem Yields.congr {m : Engine α} {Q Q' R : Except EngineFault α → Disk → Prop} (h : Yields m d R)
    (hQ : ∀ r d', R r d' → (Q r d' ↔ Q' r d')) : Yields m d Q ↔ Yields m d Q' := hQ _ _ h

theorem Yields.and {m : Engine α} {Q R : Except EngineFault α → Disk → Prop} (h : Yields m d Q)
    (h' : Yields m d R) : Yields m d fun r d' ↦ Q r d' ∧ R r d' := ⟨h, h'⟩

@[simp] theorem yields_pure (a : α) : Yields (pure a) d Q ↔ Q (.ok a) d := Iff.rfl

@[simp] theorem yields_throw (e : EngineFault) : Yields (throw e : Engine α) d Q ↔ Q (.error e) d :=
  Iff.rfl

@[simp] theorem yields_get {Q : Except EngineFault Disk → Disk → Prop} :
    Yields get d Q ↔ Q (.ok d) d := Iff.rfl

@[simp] theorem yields_set {Q : Except EngineFault PUnit → Disk → Prop} (d' : Disk) :
    Yields (set d') d Q ↔ Q (.ok ⟨⟩) d' := Iff.rfl

theorem run_bind (m : Engine α) (f : α → Engine β) (d : Disk) :
    (m >>= f).run d = match m.run d with
      | (.ok a, d) => (f a).run d
      | (.error e, d) => (.error e, d) := by
  change ExceptT.bind m f d = _
  simp only [ExceptT.bind, ExceptT.bindCont, ExceptT.mk, ExceptT.run, bind, StateT.bind]
  rcases m d with ⟨_ | _, d⟩ <;> rfl

theorem yields_bind (m : Engine α) (f : α → Engine β) {Q : Except EngineFault β → Disk → Prop} :
    Yields (m >>= f) d Q ↔ Yields m d fun r d' ↦ match r with
      | .ok a => Yields (f a) d' Q
      | .error e => Q (.error e) d' := by
  simp only [Yields, run_bind]
  rcases m.run d with ⟨_ | _, d⟩ <;> rfl

theorem Yields.bind {m : Engine α} {f : α → Engine β} {Q : Except EngineFault β → Disk → Prop}
    {R : Except EngineFault α → Disk → Prop} (hm : Yields m d R)
    (hok : ∀ a d', R (.ok a) d' → Yields (f a) d' Q) (herror : ∀ e d', R (.error e) d' → Q (.error e) d') :
    Yields (m >>= f) d Q := by
  rw [yields_bind]
  refine hm.imp fun r d' hr ↦ ?_
  cases r with
  | ok a => exact hok a d' hr
  | error e => exact herror e d' hr

theorem yields_ite {c : Prop} [Decidable c] {m n : Engine α} :
    Yields (if c then m else n) d Q ↔ if c then Yields m d Q else Yields n d Q := by
  split <;> rfl

theorem yields_session (number : Nat) {Q : Except EngineFault Session → Disk → Prop} :
    Yields (session number) d Q ↔ match d.session? number with
      | some s => Q (.ok s) d
      | none => Q (.error .cannotOpen) d := by
  unfold session
  rw [yields_bind, yields_get]
  dsimp only
  cases d.session? number <;> rfl

def contentOf (d : Disk) (s : Session) : Content := (d.content? s.file).getD (.bytes [])

def tablesOf (d : Disk) (s : Session) : Except EngineFault Database :=
  match s.log.bind d.content? with
  | some (.log tables) => .ok tables
  | _ => (contentOf d s).image?.map Image.tables

@[simp] theorem yields_content (s : Session) {Q : Except EngineFault Content → Disk → Prop} :
    Yields (content s) d Q ↔ Q (.ok (contentOf d s)) d := Iff.rfl

@[simp] theorem yields_image (s : Session) {Q : Except EngineFault Image → Disk → Prop} :
    Yields (image s) d Q ↔ Q (contentOf d s).image? d := by
  unfold image
  rw [yields_bind, yields_content]
  dsimp only
  split
  next h => rw [h]; rfl
  next h => rw [h]; rfl

@[simp] theorem yields_visible (s : Session) {Q : Except EngineFault Database → Disk → Prop} :
    Yields (visible s) d Q ↔ Q (tablesOf d s) d := by
  have himage : Yields (return (← image s).tables) d Q ↔ Q ((contentOf d s).image?.map Image.tables) d := by
    rw [yields_bind, yields_image]
    cases (contentOf d s).image? <;> rfl
  unfold visible tablesOf
  rw [yields_bind, yields_get]
  dsimp only
  rcases s.log.bind d.content? with _ | (_ | _ | _ | _)
  case some.log => rfl
  all_goals exact himage

@[simp] theorem yields_needName (p : Place) {Q : Except EngineFault Unit → Disk → Prop} :
    Yields (needName p) d Q ↔ if (d.node? p).isNone then Q (.error .inputOutput) d else Q (.ok ()) d := by
  unfold needName
  rw [yields_bind, yields_get]
  dsimp only
  rw [yields_ite]
  rfl

theorem yields_settleJournal {s : Session} {p : Place} {Q : Except EngineFault Unit → Disk → Prop} :
    Yields (settleJournal s p) d Q ↔
      if d.isPresent (journalOf p) then
        if (contentOf d s).isBlank then
          if !(s.readOnly && s.locksFile) then Q (.ok ()) (d.unlink (journalOf p)) else Q (.ok ()) d
        else
          match (d.fileAt? (journalOf p)).bind d.content? with
          | none => Q (.error .inputOutput) d
          | some c =>
            if isMarked c then
              if s.readOnly then Q (.error .readOnly) d
              else if d.isContended s then Q (.error .locked) d
              else Q (.ok ()) (d.unlink (journalOf p))
            else Q (.ok ()) d
      else Q (.ok ()) d := by
  unfold settleJournal
  simp only [yields_bind, yields_get, yields_content, yields_ite, yields_set, yields_pure]
  cases (d.fileAt? (journalOf p)).bind d.content? with
  | none => simp only [yields_throw]
  | some c => simp only [yields_ite, yields_set, yields_throw, yields_pure]

theorem settleJournal_yields (s : Session) (p : Place) :
    Yields (settleJournal s p) d fun _ d' ↦ d' = d ∨ d' = d.unlink (journalOf p) := by
  rw [yields_settleJournal]
  repeat' split
  all_goals simp

theorem openIndex_yields {s : Session} (p : Place) (hs : s.LivesOn d) :
    Yields (openIndex s p) d fun r d' ↦ d.Extends d' ∧
      (r = .ok () → ∃ i, i ≠ .missing ∧ d'.sessions = (d.setSession { s with index := i }).sessions) := by
  have hset (i : LogIndex) : d.Extends (d.setSession { s with index := i }) :=
    extends_setSession d ⟨hs.file, hs.log⟩
  unfold openIndex
  simp only [yields_bind, yields_get]
  split
  next t ht =>
    have hi : t.index ≠ .missing := by simpa using List.find?_some ht
    exact ⟨hset _, fun _ ↦ ⟨_, hi, rfl⟩⟩
  · rw [yields_ite]
    split
    · exact ⟨hset _, fun _ ↦ ⟨_, by simp, rfl⟩⟩
    · split
      · exact ⟨hset _, fun _ ↦ ⟨_, by simp, rfl⟩⟩
      · exact ⟨hset _, fun _ ↦ ⟨_, by simp, rfl⟩⟩
      · exact ⟨(hset .writable).trans (extends_setContent _ _ nofun), fun _ ↦ ⟨_, by simp, rfl⟩⟩
      · exact ⟨.refl d, nofun⟩
      · exact ⟨(hset .writable).trans (extends_createFile _ _ nofun), fun _ ↦ ⟨_, by simp, rfl⟩⟩

theorem openLog_yields {s : Session} (p : Place) (hd : d.WellFormed) (hs : s.LivesOn d) :
    Yields (openLog s p) d fun r d' ↦ d.Extends d' ∧ (r = .ok () → ∃ n i, i ≠ .missing ∧
      d'.sessions = (d.setSession { s with log := some n, index := i }).sessions) := by
  unfold openLog
  simp only [yields_bind, yields_ite, yields_throw, yields_needName, yields_get]
  split
  · exact ⟨.refl d, nofun⟩
  · split
    · exact ⟨.refl d, nofun⟩
    · split
      · exact ⟨.refl d, nofun⟩
      next n d₁ hopen =>
        obtain ⟨hext, hn⟩ := extends_openAt? hopen
        have hlives : ({ s with log := some n } : Session).LivesOn d₁ :=
          ⟨(hs.mono hext.length).file, fun m hm ↦ Option.some.inj hm ▸ hn hd⟩
        simp only [yields_bind, yields_set]
        refine (openIndex_yields (d := d₁.setSession _) p (hlives.mono (Nat.le_refl _))).imp fun r d' ⟨hd', hr⟩ ↦ ?_
        refine ⟨(hext.trans (extends_setSession d₁ hlives)).trans hd', fun h ↦ ?_⟩
        obtain ⟨i, hi, hsessions⟩ := hr h
        have hset := setSession_setSession d₁ (s := { s with log := some n })
          (t := { s with log := some n, index := i }) rfl
        refine ⟨n, i, hi, hsessions.trans ((congrArg Disk.sessions hset).trans ?_)⟩
        rw [setSession, setSession, sessions_openAt? hopen]

def AsksForLog (d : Disk) (s : Session) : Prop :=
  ∃ i, (contentOf d s).image? = .ok i ∧ i.journal = .wal

theorem image?_of_isBlank {c : Content} (h : c.isBlank = true) : c.image? = .ok {} := by
  cases c with
  | bytes b => simp_all [Content.isBlank, Content.image?, Database.Format.read]
  | _ => simp [Content.isBlank] at h

theorem isEmpty_of_not_isBlank {c : Content} (h : c.isBlank = false) : c.isEmpty = false := by
  cases c with
  | bytes b =>
    cases b with
    | nil => simp [Content.isBlank, Database.Format.isBlank] at h
    | cons => rfl
  | _ => rfl

theorem not_asksForLog_of_isBlank {s : Session} (h : (contentOf d s).isBlank = true) :
    ¬ AsksForLog d s := by
  rintro ⟨i, hi, hj⟩
  rw [image?_of_isBlank h] at hi
  cases hi
  cases hj

theorem findLog_yields {s : Session} (p : Place) (hd : d.WellFormed) (hs : s.LivesOn d) :
    Yields (findLog s p) d fun r d' ↦ d.Extends d' ∧ (r = .ok () →
      (∃ n i, i ≠ .missing ∧
        d'.sessions = (d.setSession { s with log := some n, index := i }).sessions) ∨
      (d' = d ∨ d' = d.unlink (logOf p)) ∧ d'.isPresent (logOf p) = false ∧ ¬ AsksForLog d s) := by
  have hopen := (openLog_yields p hd hs).imp fun r d' ⟨hext, hr⟩ ↦
    And.intro hext fun h ↦ Or.inl (b := (d' = d ∨ d' = d.unlink (logOf p)) ∧
      d'.isPresent (logOf p) = false ∧ ¬ AsksForLog d s) (hr h)
  unfold findLog
  simp only [yields_bind, yields_get, yields_content, yields_ite, yields_throw, yields_set, yields_pure,
    yields_image]
  split
  next hpresent =>
    split
    · exact hopen
    next hblank =>
      split
      · exact ⟨.refl d, nofun⟩
      next hdirectory =>
        refine ⟨extends_unlink d _, fun _ ↦ .inr ⟨.inr trivial, ?_, ?_⟩⟩
        · exact isPresent_unlink_self (by simpa using hdirectory)
        · exact not_asksForLog_of_isBlank (by simpa using hblank)
  next hpresent =>
    split
    next hblank =>
      split
      next i hi =>
        split
        · exact hopen
        next hj =>
          refine ⟨.refl d, fun _ ↦ .inr ⟨.inl trivial, by simpa using hpresent, ?_⟩⟩
          rintro ⟨i', hi', hj'⟩
          cases hi.symm.trans hi'
          simp [hj'] at hj
      · exact ⟨.refl d, nofun⟩
    next hblank =>
      refine ⟨.refl d, fun _ ↦ .inr ⟨.inl trivial, by simpa using hpresent, ?_⟩⟩
      exact not_asksForLog_of_isBlank (by simpa using hblank)

end Gatekeeper.Engine
