import Gatekeeper.Database.Journal

namespace Gatekeeper

structure Session.LivesOn (s : Session) (d : Disk) : Prop where
  file : s.file < d.contents.length
  log : ∀ n, s.log = some n → n < d.contents.length

theorem Session.LivesOn.mono {s : Session} {d d' : Disk} (h : s.LivesOn d)
    (hl : d.contents.length ≤ d'.contents.length) : s.LivesOn d' :=
  ⟨Nat.lt_of_lt_of_le h.file hl, fun n hn ↦ Nat.lt_of_lt_of_le (h.log n hn) hl⟩

namespace Disk

structure WellFormed (d : Disk) : Prop where
  named : ∀ name n, d.entries.get? name = some (.file n) → n < d.contents.length
  sessions : ∀ s ∈ d.sessions, s.LivesOn d

def foundAt? (d : Disk) (p : Place) : Option Content := (d.fileAt? p).bind d.content?

/-- Whether a disk came from another one without losing a file, and with no bytes but those that were there. -/
structure Extends (d d' : Disk) : Prop where
  length : d.contents.length ≤ d'.contents.length
  wellFormed : d.WellFormed → d'.WellFormed
  bytes : ∀ p b, d'.foundAt? p = some (.bytes b) → b = [] ∨ d.foundAt? p = some (.bytes b)

variable {d d' d'' : Disk}

theorem Extends.refl (d : Disk) : d.Extends d := ⟨Nat.le_refl _, id, fun _ _ ↦ .inr⟩

theorem Extends.trans (h : d.Extends d') (h' : d'.Extends d'') : d.Extends d'' where
  length := Nat.le_trans h.length h'.length
  wellFormed := h'.wellFormed ∘ h.wellFormed
  bytes := fun p b hb ↦ (h'.bytes p b hb).elim .inl (h.bytes p b)

theorem wellFormed_empty : ({} : Disk).WellFormed := ⟨by simp, by simp⟩

theorem node?_eq_get? {p : Place} {e : Entry} (h : d.node? p = some e) :
    e = .directory ∨ d.entries.get? p.text = some e := by
  simp only [node?] at h
  split at h
  · exact .inl (Option.some.inj h).symm
  · exact .inr h

theorem get?_of_node?_file {p : Place} {n : Nat} (h : d.node? p = some (.file n)) :
    d.entries.get? p.text = some (.file n) := by
  rcases node?_eq_get? h with he | he
  · cases he
  · exact he

theorem node?_of_fileAt? {p : Place} {n : Nat} (h : d.fileAt? p = some n) :
    d.node? p = some (.file n) := by
  simp only [fileAt?] at h
  split at h
  next m hm => rw [hm, Option.some.inj h]
  · cases h

theorem WellFormed.lt_of_node? {p : Place} {n : Nat} (hd : d.WellFormed)
    (h : d.node? p = some (.file n)) : n < d.contents.length :=
  hd.named _ _ (get?_of_node?_file h)

theorem session?_mem {number : Nat} {s : Session} (h : d.session? number = some s) :
    s ∈ d.sessions := List.mem_of_find?_eq_some h

theorem session?_number {number : Nat} {s : Session} (h : d.session? number = some s) :
    s.number = number := by simpa using List.find?_some h

theorem WellFormed.livesOn {number : Nat} {s : Session} (hd : d.WellFormed)
    (h : d.session? number = some s) : s.LivesOn d := hd.sessions s (session?_mem h)

theorem get?_unlink (d : Disk) (p : Place) (name : String) (e : Entry)
    (h : (d.unlink p).entries.get? name = some e) : d.entries.get? name = some e := by
  unfold unlink at h
  split at h
  · rw [Catalog.get?_erase] at h
    split at h
    · cases h
    · exact h
  · exact h

@[simp] theorem contents_unlink (d : Disk) (p : Place) : (d.unlink p).contents = d.contents := by
  unfold unlink
  split <;> rfl

@[simp] theorem sessions_unlink (d : Disk) (p : Place) : (d.unlink p).sessions = d.sessions := by
  unfold unlink
  split <;> rfl

theorem node?_unlink {p q : Place} {e : Entry} (h : (d.unlink p).node? q = some e) :
    d.node? q = some e := by
  simp only [node?] at h ⊢
  split
  next hq => rwa [if_pos hq] at h
  next hq => exact get?_unlink d p _ _ (by rwa [if_neg hq] at h)

theorem isPresent_unlink {p q : Place} (h : d.isPresent q = false) :
    (d.unlink p).isPresent q = false := by
  cases hq : (d.unlink p).node? q with
  | none => simp [isPresent, hq]
  | some e => simpa [isPresent, hq, node?_unlink hq, content?] using h

theorem node?_unlink_of_none {p q : Place} (h : d.node? q = none) : (d.unlink p).node? q = none :=
  Option.eq_none_iff_forall_ne_some.2 fun _ he ↦ by simp [node?_unlink he] at h

theorem node?_unlink_self {p : Place} (h : d.isDirectoryAt p = false) :
    (d.unlink p).node? p = none := by
  cases hp : d.node? p with
  | none => exact node?_unlink_of_none hp
  | some e =>
    cases e with
    | directory => simp [isDirectoryAt, hp] at h
    | file n =>
      have hne : p.isEmpty = false := by
        cases p with
        | nil => simp [node?] at hp
        | cons => rfl
      rw [unlink, hp]
      simp [node?, hne, Catalog.get?_erase]

theorem isPresent_of_none {p : Place} (h : d.node? p = none) : d.isPresent p = false := by
  simp [isPresent, h]

theorem isPresent_unlink_self {p : Place} (h : d.isDirectoryAt p = false) :
    (d.unlink p).isPresent p = false := isPresent_of_none (node?_unlink_self h)

theorem content?_setContent (d : Disk) {file : Nat} (c : Content) (h : file < d.contents.length) :
    (d.setContent file c).content? file = some c := by
  simp [setContent, content?, h]

theorem content?_setContent_of_ne {m n : Nat} {c : Content} (h : m ≠ n) :
    (d.setContent n c).content? m = d.content? m := List.getElem?_set_ne h.symm

theorem unlink_setContent (d : Disk) (n : Nat) (c : Content) (p : Place) :
    (d.setContent n c).unlink p = (d.unlink p).setContent n c := by
  have hnode : (d.setContent n c).node? p = d.node? p := rfl
  rw [unlink, unlink, hnode]
  split <;> rfl

theorem isPresent_setContent_of_ne {q : Place} {n : Nat} {c : Content} (h : d.node? q ≠ some (.file n)) :
    (d.setContent n c).isPresent q = d.isPresent q := by
  have hnode : (d.setContent n c).node? q = d.node? q := rfl
  rw [isPresent, isPresent, hnode]
  cases hq : d.node? q with
  | none => rfl
  | some e =>
    cases e with
    | directory => rfl
    | file m =>
      have hne : m ≠ n := fun hm ↦ h (hm ▸ hq)
      simp only [content?_setContent_of_ne hne]

theorem isPresent_setContent {q : Place} {file : Nat} (c : Content) {c' : Content}
    (hq : d.isPresent q = false) (hc : d.content? file = some c') (he : c'.isEmpty = false) :
    (d.setContent file c).isPresent q = false := by
  rw [isPresent_setContent_of_ne, hq]
  intro hn
  simp [isPresent, hn, hc, he] at hq

theorem fileAt?_of_node? {p : Place} {n : Nat} (h : d.node? p = some (.file n)) : d.fileAt? p = some n := by
  rw [fileAt?, h]

theorem ne_nil_of_file {p : Place} {n : Nat} (h : d.node? p = some (.file n)) : p ≠ [] := by
  rintro rfl
  simp [node?] at h

theorem node?_of_ne_nil {p : Place} (hp : p ≠ []) : d.node? p = d.entries.get? p.text := by
  rw [node?, if_neg (by simpa using hp)]

theorem node?_createFile_of_ne {p q : Place} {c : Content} (h : p.text ≠ q.text) :
    (d.createFile q c).2.node? p = d.node? p := by
  by_cases hp : p = []
  · subst hp
    rfl
  · rw [node?_of_ne_nil hp, node?_of_ne_nil hp]
    simp only [createFile, addContent, Catalog.get?_insert, if_neg h]

theorem node?_createFile_of_text {p q : Place} {c : Content} (hp : p ≠ []) (h : p.text = q.text) :
    (d.createFile q c).2.node? p = some (.file d.contents.length) := by
  rw [node?_of_ne_nil hp]
  simp [createFile, addContent, Catalog.get?_insert, h]

theorem node?_createFile_self {p : Place} {c : Content} (hp : p ≠ []) :
    (d.createFile p c).2.node? p = some (.file d.contents.length) := node?_createFile_of_text hp rfl

theorem extends_unlink (d : Disk) (p : Place) : d.Extends (d.unlink p) where
  length := by simp
  wellFormed := fun hd ↦ {
    named := fun name n h ↦ by simpa using hd.named name n (get?_unlink d p _ _ h)
    sessions := fun s hs ↦ (hd.sessions s (by simpa using hs)).mono (by simp) }
  bytes := by
    intro q b hb
    obtain ⟨n, hn, hb⟩ := Option.bind_eq_some_iff.1 hb
    rw [content?, contents_unlink] at hb
    exact .inr (Option.bind_eq_some_iff.2 ⟨n, fileAt?_of_node? (node?_unlink (node?_of_fileAt? hn)), hb⟩)

theorem length_setContent (d : Disk) (file : Nat) (c : Content) :
    (d.setContent file c).contents.length = d.contents.length := List.length_set

theorem WellFormed.setContent (hd : d.WellFormed) (file : Nat) (c : Content) :
    (d.setContent file c).WellFormed where
  named := fun name n h ↦ by simpa only [length_setContent] using hd.named name n h
  sessions := fun s hs ↦ (hd.sessions s hs).mono (Nat.le_of_eq (length_setContent d file c).symm)

theorem extends_setContent (d : Disk) (file : Nat) {c : Content} (hc : ∀ b, c ≠ .bytes b) :
    d.Extends (d.setContent file c) where
  length := Nat.le_of_eq (length_setContent d file c).symm
  wellFormed := fun hd ↦ hd.setContent file c
  bytes := by
    intro q b hb
    obtain ⟨n, hn, hb⟩ := Option.bind_eq_some_iff.1 hb
    refine .inr (Option.bind_eq_some_iff.2 ⟨n, hn, ?_⟩)
    by_cases hfile : n = file
    · subst hfile
      by_cases hlt : n < d.contents.length
      · rw [content?_setContent d c hlt] at hb
        exact absurd (Option.some.inj hb) (hc b)
      · simp [content?, Disk.setContent, Nat.not_lt.1 hlt] at hb
    · rwa [content?_setContent_of_ne hfile] at hb

theorem length_addContent (d : Disk) (c : Content) :
    (d.addContent c).2.contents.length = d.contents.length + 1 := by simp [addContent]

theorem content?_addContent {n : Nat} {c c' : Content} (h : (d.addContent c).2.content? n = some c') :
    d.content? n = some c' ∨ c' = c := by
  simp only [content?, addContent, List.getElem?_append] at h
  split at h
  · exact .inl h
  · exact .inr (by simpa using List.mem_of_getElem? h)

theorem WellFormed.addContent (hd : d.WellFormed) (c : Content) : (d.addContent c).2.WellFormed := by
  have hl := length_addContent d c
  refine ⟨fun name n h ↦ ?_, fun s hs ↦ (hd.sessions s hs).mono (by omega)⟩
  have hn := hd.named name n h
  omega

theorem extends_addContent (d : Disk) {c : Content} (hc : ∀ b, c = .bytes b → b = []) :
    d.Extends (d.addContent c).2 where
  length := by
    have hl := length_addContent d c
    omega
  wellFormed := fun hd ↦ hd.addContent c
  bytes := by
    intro q b hb
    obtain ⟨n, hn, hb⟩ := Option.bind_eq_some_iff.1 hb
    rcases content?_addContent hb with hb | hb
    · exact .inr (Option.bind_eq_some_iff.2 ⟨n, hn, hb⟩)
    · exact .inl (hc b hb.symm)

theorem WellFormed.createFile (hd : d.WellFormed) (p : Place) (c : Content) : (d.createFile p c).2.WellFormed := by
  have hl : (d.createFile p c).2.contents.length = d.contents.length + 1 := length_addContent d c
  refine ⟨fun name n h ↦ ?_, fun s hs ↦ (hd.sessions s hs).mono (by omega)⟩
  simp only [Disk.createFile, Disk.addContent, Catalog.get?_insert] at h
  split at h
  · obtain rfl : d.contents.length = n := by simpa using h
    omega
  · have hn := hd.named name n h
    omega

theorem extends_createFile (d : Disk) (p : Place) {c : Content} (hc : ∀ b, c = .bytes b → b = []) :
    d.Extends (d.createFile p c).2 where
  length := by
    have hl : (d.createFile p c).2.contents.length = d.contents.length + 1 := length_addContent d c
    omega
  wellFormed := fun hd ↦ hd.createFile p c
  bytes := by
    intro q b hb
    obtain ⟨n, hn, hb⟩ := Option.bind_eq_some_iff.1 hb
    rcases content?_addContent hb with hb | hb
    · have hnode := node?_of_fileAt? hn
      by_cases hq : q.text = p.text
      · -- The name of the new file leads to no file that was there.
        rw [node?_createFile_of_text (ne_nil_of_file hnode) hq] at hnode
        cases hnode
        simp [content?] at hb
      · rw [node?_createFile_of_ne hq] at hnode
        exact .inr (Option.bind_eq_some_iff.2 ⟨n, fileAt?_of_node? hnode, hb⟩)
    · exact .inl (hc b hb.symm)

theorem createFile_fst_lt (d : Disk) (p : Place) (c : Content) :
    (d.createFile p c).1 < (d.createFile p c).2.contents.length := by
  simp [createFile, addContent]

theorem extends_setSession (d : Disk) {s : Session} (hs : s.LivesOn d) :
    d.Extends (d.setSession s) := by
  refine ⟨Nat.le_refl _, fun hd ↦ ⟨hd.named, fun t ht ↦ ?_⟩, fun _ _ ↦ .inr⟩
  obtain ⟨u, hu, rfl⟩ := List.mem_map.1 ht
  split
  · exact hs.mono (Nat.le_refl _)
  · exact (hd.sessions u hu).mono (Nat.le_refl _)

theorem session?_setSession (d : Disk) (s : Session) {number : Nat} {t : Session}
    (h : d.session? number = some t) :
    (d.setSession s).session? number = some (if number = s.number then s else t) := by
  have hnumber := session?_number h
  obtain ⟨hp, as, bs, hl, ha⟩ := List.find?_eq_some_iff_append.1 h
  refine List.find?_eq_some_iff_append.2 ⟨?_, as.map (fun u ↦ if u.number = s.number then s else u),
    bs.map (fun u ↦ if u.number = s.number then s else u), ?_, fun u hu ↦ ?_⟩
  · split <;> simp_all
  · simp [setSession, hl, hnumber]
  · obtain ⟨v, hv, rfl⟩ := List.mem_map.1 hu
    have hne := ha v hv
    split <;> simp_all

theorem setSession_setSession (d : Disk) {s t : Session} (h : s.number = t.number) :
    (d.setSession s).setSession t = d.setSession t := by
  simp only [setSession, List.map_map, Disk.mk.injEq, true_and, and_true]
  refine List.map_congr_left fun u _ ↦ ?_
  by_cases hu : u.number = t.number <;> simp [h, hu]

theorem extends_addSession (d : Disk) {s : Session} (hs : s.LivesOn d) :
    d.Extends (d.addSession s).2 := by
  refine ⟨Nat.le_refl _, fun hd ↦ ⟨hd.named, fun t ht ↦ ?_⟩, fun _ _ ↦ .inr⟩
  rcases List.mem_cons.1 ht with rfl | ht
  · exact ⟨hs.file, hs.log⟩
  · exact (hd.sessions t ht).mono (Nat.le_refl _)

theorem extends_filterSessions (d : Disk) (keep : Session → Bool) :
    d.Extends { d with sessions := d.sessions.filter keep } where
  length := Nat.le_refl _
  wellFormed := fun hd ↦ ⟨hd.named, fun t ht ↦ (hd.sessions t (List.mem_filter.1 ht).1).mono (Nat.le_refl _)⟩
  bytes := fun _ _ ↦ .inr

theorem extends_makeDirectory (d : Disk) (p : Place) : d.Extends (d.makeDirectory p) := by
  have hold {name : String} {n : Nat} (h : (d.makeDirectory p).entries.get? name = some (.file n)) :
      d.entries.get? name = some (.file n) := by
    rw [makeDirectory, Catalog.get?_insert] at h
    split at h
    · cases h
    · exact h
  refine ⟨Nat.le_refl _, fun hd ↦ ⟨fun name n h ↦ hd.named name n (hold h), fun s hs ↦
    (hd.sessions s hs).mono (Nat.le_refl _)⟩, fun q b hb ↦ ?_⟩
  obtain ⟨n, hn, hb⟩ := Option.bind_eq_some_iff.1 hb
  have hnode := node?_of_fileAt? hn
  refine .inr (Option.bind_eq_some_iff.2 ⟨n, fileAt?_of_node? ?_, hb⟩)
  rw [node?] at hnode ⊢
  split at hnode
  · cases hnode
  next hroot =>
    rw [if_neg hroot]
    exact hold hnode

theorem extends_makeAll (d : Disk) (p : Place) (names : List String) :
    d.Extends (d.makeAll p names).2 := by
  fun_induction makeAll d p names with
  | case1 => exact .refl _
  | case2 _ _ _ ih => exact ih
  | case3 _ _ _ ih => exact ih
  | case4 _ _ _ ih => exact ih
  | case5 _ _ _ _ _ _ _ _ ih => exact ih
  | case6 => exact .refl _
  | case7 d p name names _ _ _ _ ih => exact (extends_makeDirectory _ _).trans ih

theorem extends_makeDirectories (d : Disk) (components : List String) :
    d.Extends (d.makeDirectories components).2 := by
  unfold makeDirectories
  split
  · exact .refl d
  · exact extends_makeAll d _ _

theorem openAt?_cases {p : Place} {n : Nat} (h : d.openAt? p = some (n, d')) :
    d.node? p = some (.file n) ∧ d' = d ∨
      d.node? p = none ∧ n = d.contents.length ∧ d' = (d.createFile p (.bytes [])).2 := by
  unfold openAt? at h
  split at h
  next hfile =>
    cases h
    exact .inl ⟨hfile, rfl⟩
  · cases h
  next hnone =>
    split at h
    · obtain ⟨rfl, rfl⟩ := Prod.mk.inj (Option.some.inj h)
      exact .inr ⟨hnone, rfl, rfl⟩
    · cases h

theorem extends_openAt? {p : Place} {n : Nat} (h : d.openAt? p = some (n, d')) :
    d.Extends d' ∧ (d.WellFormed → n < d'.contents.length) := by
  rcases openAt?_cases h with ⟨hfile, rfl⟩ | ⟨-, rfl, rfl⟩
  · exact ⟨.refl _, fun hd ↦ hd.lt_of_node? hfile⟩
  · exact ⟨extends_createFile d p fun _ h ↦ (Content.bytes.inj h).symm, fun _ ↦ createFile_fst_lt d p _⟩

theorem sessions_openAt? {p : Place} {n : Nat} (h : d.openAt? p = some (n, d')) :
    d'.sessions = d.sessions := by
  rcases openAt?_cases h with ⟨-, rfl⟩ | ⟨-, -, rfl⟩ <;> rfl

theorem extends_carryOver (d : Disk) (s : Session) (p : Place) (log : Nat) :
    d.Extends (d.carryOver s p log) := by
  unfold carryOver
  split
  · dsimp only
    split
    · exact (extends_setContent d _ fun _ h ↦ by cases h).trans (extends_unlink _ _)
    · exact ((extends_setContent d _ fun _ h ↦ by cases h).trans (extends_unlink _ _)).trans (extends_unlink _ _)
  · dsimp only
    split
    · exact extends_unlink _ _
    · exact (extends_unlink _ _).trans (extends_unlink _ _)

end Disk

end Gatekeeper
