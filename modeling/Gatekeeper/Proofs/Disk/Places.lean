import Gatekeeper.Proofs.Disk.WellFormed

namespace Gatekeeper.Disk

variable {d d' : Disk} {p q : Place} {c : Content}

namespace Place

theorem text_concat (p : Place) (name : String) : text (p ++ [name]) = text p ++ "/" ++ name := by
  simp [text]

theorem dropLast_beside (p : Place) (suffix : String) : (p.beside suffix).dropLast = p.dropLast := by
  simp [beside]

theorem name_beside (p : Place) (suffix : String) : (p.beside suffix).name = p.name ++ suffix := by
  simp [beside, name]

theorem text_beside (hp : p ≠ []) (suffix : String) : (p.beside suffix).text = p.text ++ suffix := by
  have hlast : p.dropLast ++ [p.name] = p := by
    simpa [name, List.getLastD_eq_getLast?, List.getLast?_eq_some_getLast hp] using
      List.dropLast_concat_getLast hp
  have hp' := text_concat p.dropLast p.name
  rw [hlast] at hp'
  rw [beside, text_concat, hp']
  simp only [String.append_assoc]

theorem text_beside_ne_self (hp : p ≠ []) {suffix : String} (h : suffix ≠ "") :
    (p.beside suffix).text ≠ p.text := by
  rw [text_beside hp]
  intro he
  have hlength := congrArg String.utf8ByteSize he
  rw [String.utf8ByteSize_append] at hlength
  exact h (String.utf8ByteSize_eq_zero_iff.1 (by omega))

theorem text_beside_ne (p : Place) {suffix suffix' : String} (h : suffix ≠ suffix') :
    (p.beside suffix).text ≠ (p.beside suffix').text := by
  rw [beside, beside, text_concat, text_concat]
  intro he
  exact h ((String.append_right_inj _).1 ((String.append_right_inj _).1 he))

end Place

theorem text_journalOf_ne_logOf (p : Place) : (journalOf p).text ≠ (logOf p).text :=
  p.text_beside_ne (by decide)

theorem text_journalOf_ne_indexOf (p : Place) : (journalOf p).text ≠ (indexOf p).text :=
  p.text_beside_ne (by decide)

theorem text_logOf_ne_indexOf (p : Place) : (logOf p).text ≠ (indexOf p).text :=
  p.text_beside_ne (by decide)

theorem ne_nil_of_none (h : d.node? p = none) : p ≠ [] := by
  rintro rfl
  simp [node?] at h

theorem fileAt?_of_isDirectoryAt (h : d.isDirectoryAt p = true) : d.fileAt? p = none := by
  rw [isDirectoryAt, beq_iff_eq] at h
  simp [fileAt?, h]

theorem isDirectoryAt_of_file {n : Nat} (h : d.node? p = some (.file n)) : d.isDirectoryAt p = false := by
  simp [isDirectoryAt, h]

theorem isDirectoryAt_of_none (h : d.node? p = none) : d.isDirectoryAt p = false := by
  simp [isDirectoryAt, h]

theorem node?_unlink_of_ne (h : p.text ≠ q.text) : (d.unlink q).node? p = d.node? p := by
  by_cases hp : p = []
  · subst hp
    rfl
  · rw [node?_of_ne_nil hp, node?_of_ne_nil hp, unlink]
    split
    · simp only [Catalog.get?_erase, if_neg h]
    · rfl

theorem isDirectoryAt_unlink (d : Disk) (p q : Place) :
    (d.unlink q).isDirectoryAt p = d.isDirectoryAt p := by
  by_cases h : p.text = q.text
  · cases hq : d.isDirectoryAt q with
    | true =>
      have hsame : d.unlink q = d := by
        rw [isDirectoryAt, beq_iff_eq] at hq
        simp [unlink, hq]
      rw [hsame]
    | false =>
      by_cases hp : p = []
      · subst hp
        rfl
      · have hnode : (d.unlink q).node? q = none := node?_unlink_self hq
        have hq' := ne_nil_of_none hnode
        rw [node?_of_ne_nil hq', ← h, ← node?_of_ne_nil hp] at hnode
        rw [isDirectoryAt_of_none hnode]
        rw [isDirectoryAt, node?_of_ne_nil hq', ← h, ← node?_of_ne_nil hp] at hq
        exact hq.symm
  · rw [isDirectoryAt, isDirectoryAt, node?_unlink_of_ne h]

theorem isDirectoryAt_createFile (c : Content) (hq : d.node? q = none) (p : Place) :
    (d.createFile q c).2.isDirectoryAt p = d.isDirectoryAt p := by
  by_cases h : p.text = q.text
  · by_cases hp : p = []
    · subst hp
      rfl
    · have hq' := ne_nil_of_none hq
      have hnew := node?_createFile_self (d := d) (c := c) hq'
      rw [node?_of_ne_nil hq', ← h, ← node?_of_ne_nil hp] at hnew hq
      rw [isDirectoryAt_of_file hnew, isDirectoryAt_of_none hq]
  · rw [isDirectoryAt, isDirectoryAt, node?_createFile_of_ne h]

theorem content?_createFile_self (d : Disk) (p : Place) (c : Content) :
    (d.createFile p c).2.content? d.contents.length = some c := by
  simp [createFile, addContent, content?]

theorem content?_createFile {n : Nat} (h : n < d.contents.length) :
    (d.createFile p c).2.content? n = d.content? n := by
  rw [content?, createFile, addContent, List.getElem?_append_left h, content?]

theorem node?_of_createFile {n : Nat} (hn : n < d.contents.length)
    (h : (d.createFile q c).2.node? p = some (.file n)) : d.node? p = some (.file n) := by
  have hp := ne_nil_of_file h
  rw [node?_of_ne_nil hp] at h ⊢
  simp only [createFile, addContent, Catalog.get?_insert] at h
  split at h
  · cases h
    exact absurd hn (Nat.lt_irrefl _)
  · exact h

theorem node?_openAt? {m n : Nat} (hopen : d.openAt? q = some (n, d')) (h : d.node? p = some (.file m)) :
    d'.node? p = some (.file m) := by
  rcases openAt?_cases hopen with ⟨-, rfl⟩ | ⟨hq, -, rfl⟩
  · exact h
  · rwa [node?_createFile_of_ne]
    intro htext
    rw [node?_of_ne_nil (ne_nil_of_file h), htext, ← node?_of_ne_nil (ne_nil_of_none hq), hq] at h
    cases h

theorem isPresent_createFile (hd : d.WellFormed) (h : d.isPresent p = false) :
    (d.createFile q (.bytes [])).2.isPresent p = false := by
  have hp : p ≠ [] := by
    rintro rfl
    simp [isPresent, node?] at h
  by_cases htext : p.text = q.text
  · have hnew : (d.createFile q (.bytes [])).2.node? p = some (.file d.contents.length) := by
      rw [node?_of_ne_nil hp, htext]
      simp [createFile, addContent, Catalog.get?_insert]
    simp [isPresent, hnew, content?_createFile_self, Content.isEmpty]
  · rw [isPresent, node?_createFile_of_ne htext]
    rw [isPresent] at h
    split
    · rfl
    next hn => simp [hn] at h
    next n hn =>
      rw [hn] at h
      rwa [content?_createFile (hd.lt_of_node? hn)]

theorem walk_congr (h : ∀ q, d'.isDirectoryAt q = d.isDirectoryAt q) (p : Place) (names : List String) :
    d'.walk p names = d.walk p names := by
  induction names generalizing p with
  | nil => rfl
  | cons name names ih => simp only [walk, h, ih]

theorem find?_congr {path : String} (hhere : d'.here = d.here) (h : ∀ q, d'.isDirectoryAt q = d.isDirectoryAt q) :
    d'.find? path = d.find? path := by
  rw [find?, find?, walk_congr h, start, start, hhere]

theorem content?_append {n : Nat} {b : Bytes} (h : d.content? n = some (.bytes b)) (more : Bytes) :
    (d.append n more).content? n = some (.bytes (b ++ more)) := by
  have hlt : n < d.contents.length := (List.getElem?_eq_some_iff.1 h).1
  rw [append, h]
  exact content?_setContent d _ hlt

theorem append_eq (d : Disk) (n : Nat) (more : Bytes) :
    ∃ contents, d.append n more = { d with contents } := by
  unfold append
  split
  · exact ⟨_, rfl⟩
  · exact ⟨d.contents, rfl⟩

end Gatekeeper.Disk
