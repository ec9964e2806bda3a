import Gatekeeper.Database.Connection
import Gatekeeper.Proofs.Disk.Places

namespace Gatekeeper.Disk

open Gatekeeper.Disk.Path

variable {d d' w : Disk} {p q r : Place} {names : List String} {path last : String}

def follow (p : Place) : String → Place
  | "/" => []
  | "." => p
  | ".." => p.dropLast
  | name => p ++ [name]

theorem follow_name {name : String} (h : name ≠ "/") (h' : name ≠ ".") (h'' : name ≠ "..") :
    follow p name = p ++ [name] := by
  unfold follow
  split <;> simp_all

def counts (name : String) : Bool := name ≠ "" && name ≠ "."

theorem walk_eq (hnames : "/" ∉ names) (h : d.walk p names = some r) :
    r = (names.filter counts).foldl follow p := by
  fun_induction walk d p names with
  | case1 => exact (Option.some.inj h).symm
  | case2 p name names _ hskip ih =>
    rw [ih (fun hm ↦ hnames (List.mem_cons_of_mem _ hm)) h, List.filter_cons_of_neg]
    rcases hskip with rfl | rfl <;> simp [counts]
  | case3 p names _ hskip ih =>
    rw [ih (fun hm ↦ hnames (List.mem_cons_of_mem _ hm)) h, List.filter_cons_of_pos (by decide)]
    rfl
  | case4 => cases h
  | case5 p name names _ hskip hup _ ih =>
    rw [not_or] at hskip
    have hslash : name ≠ "/" := fun he ↦ hnames (he ▸ List.mem_cons_self)
    rw [ih (fun hm ↦ hnames (List.mem_cons_of_mem _ hm)) h, List.filter_cons_of_pos (by simp [counts, hskip]),
      List.foldl_cons, follow_name hslash hskip.2 hup]
  | case6 => cases h

theorem enginePlace?_eq (h : d.enginePlace? p names = some r) : r = names.foldl follow p := by
  fun_induction enginePlace? d p names with
  | case1 => exact (Option.some.inj h).symm
  | case2 p names ih => exact ih h
  | case3 p names ih => exact ih h
  | case4 p names ih => exact ih h
  | case5 => cases h
  | case6 p name names hslash hdot hup _ ih =>
    rw [ih h, List.foldl_cons, follow_name hslash hdot hup]

theorem pieces_ne_nil (cs : List Char) : pieces cs ≠ [] := by
  fun_cases pieces cs <;> simp

theorem pieces_cons_of_ne {c : Char} (hc : c ≠ '/') (cs : List Char) :
    ∃ piece rest, pieces (c :: cs) = (c :: piece) :: rest := by
  rw [pieces.eq_3 _ _ hc]
  split
  · exact ⟨_, _, rfl⟩
  · exact ⟨_, _, rfl⟩

theorem slash_notMem_of_mem_pieces {cs piece : List Char} (h : piece ∈ pieces cs) : '/' ∉ piece := by
  fun_induction pieces cs generalizing piece with
  | case1 => simp_all
  | case2 cs ih =>
    rcases List.mem_cons.1 h with rfl | h
    · simp
    · exact ih h
  | case3 c cs hc _ _ =>
    obtain rfl : piece = [c] := by simpa using h
    simpa using Ne.symm hc
  | case4 c cs hc first rest hpieces ih =>
    rcases List.mem_cons.1 h with rfl | h
    · have hfirst := ih (hpieces ▸ List.mem_cons_self)
      simp [hfirst, Ne.symm hc]
    · exact ih (hpieces ▸ List.mem_cons_of_mem _ h)

theorem counts_ofList (piece : List Char) : counts (String.ofList piece) = isName piece := by
  have hdot : String.ofList piece = String.ofList ['.'] ↔ piece = ['.'] := String.ofList_inj
  have hnil : String.ofList piece = String.ofList [] ↔ piece = [] := String.ofList_inj
  change String.ofList piece = "." ↔ _ at hdot
  change String.ofList piece = "" ↔ _ at hnil
  simp [counts, isName, hdot, hnil, bne, Bool.beq_eq_decide_eq]

theorem filter_counts_pieces (cs : List Char) :
    ((pieces cs).map String.ofList).filter counts = ((pieces cs).filter isName).map String.ofList := by
  rw [List.filter_map]
  exact congrArg _ (List.filter_congr fun piece _ ↦ counts_ofList piece)

theorem foldl_components (d : Disk) (path : String) :
    (components path).foldl follow d.here =
      (((pieces path.toList).map String.ofList).filter counts).foldl follow (d.start path) := by
  rw [filter_counts_pieces, components, componentsOf, List.map_append, List.foldl_append]
  refine congrArg (fun p ↦ List.foldl follow p _) ?_
  rw [start]
  cases path.toList with
  | nil => rfl
  | cons c cs =>
    by_cases hc : c = '/'
    · subst hc
      obtain ⟨first, rest, hpieces⟩ := List.exists_cons_of_ne_nil (pieces_ne_nil cs)
      simp only [pieces, hpieces, List.head?_cons, if_true]
      rfl
    · obtain ⟨piece, rest, hpieces⟩ := pieces_cons_of_ne hc cs
      rw [if_neg (by simpa using hc), hpieces]
      split
      next h => cases h
      · rfl
      · rfl

theorem find?_eq {p r : Place} (h : d.find? path = some r)
    (hp : d.enginePlace? d.here (components path) = some p) : r = p := by
  rw [find?] at h
  split at h
  · rw [enginePlace?_eq hp, foldl_components]
    refine walk_eq (fun hm ↦ ?_) h
    obtain ⟨piece, hpiece, hslash⟩ := List.mem_map.1 hm
    refine slash_notMem_of_mem_pieces hpiece ?_
    rw [← String.toList_ofList (l := piece), hslash]
    simp
  · cases h

/-- Whether a place and all above it are directories. -/
def IsGrounded (d : Disk) (p : Place) : Prop := ∀ q, q <+: p → d.isDirectoryAt q

/-- Whether every place from which a name is followed is a directory. -/
def Paved (d : Disk) : Place → List String → Prop
  | _, [] => True
  | p, name :: names => d.isDirectoryAt p ∧ Paved d (follow p name) names

theorem Paved.mono (h : ∀ q, d.isDirectoryAt q → d'.isDirectoryAt q) (hp : d.Paved p names) :
    d'.Paved p names := by
  induction names generalizing p with
  | nil => trivial
  | cons name names ih => exact ⟨h p hp.1, ih hp.2⟩

theorem isGrounded_nil (d : Disk) : d.IsGrounded [] := by
  intro q hq
  obtain rfl := List.prefix_nil.1 hq
  rfl

theorem IsGrounded.dropLast (h : d.IsGrounded p) : d.IsGrounded p.dropLast :=
  fun q hq ↦ h q (hq.trans (List.dropLast_prefix p))

theorem IsGrounded.concat {name : String} (h : d.IsGrounded p) (hname : d.isDirectoryAt (p ++ [name])) :
    d.IsGrounded (p ++ [name]) := by
  intro q hq
  rcases List.prefix_concat_iff.1 hq with rfl | hq
  · exact hname
  · exact h q hq

theorem isDirectoryAt_makeDirectory (h : d.isDirectoryAt q = true) :
    (d.makeDirectory p).isDirectoryAt q = true := by
  by_cases hq : q = []
  · subst hq
    rfl
  · rw [isDirectoryAt, beq_iff_eq, node?_of_ne_nil hq] at h ⊢
    rw [makeDirectory, Catalog.get?_insert]
    split
    · rfl
    · exact h

theorem isDirectoryAt_makeDirectory_self (d : Disk) (p : Place) :
    (d.makeDirectory p).isDirectoryAt p = true := by
  by_cases hp : p = []
  · subst hp
    rfl
  · rw [isDirectoryAt, beq_iff_eq, node?_of_ne_nil hp, makeDirectory, Catalog.get?_insert, if_pos rfl]

theorem isDirectoryAt_makeAll (h : d.isDirectoryAt q = true) :
    (d.makeAll p names).2.isDirectoryAt q = true := by
  fun_induction makeAll d p names with
  | case1 => exact h
  | case2 _ _ _ ih => exact ih h
  | case3 _ _ _ ih => exact ih h
  | case4 _ _ _ ih => exact ih h
  | case5 _ _ _ _ _ _ _ _ ih => exact ih h
  | case6 => exact h
  | case7 _ _ _ _ _ _ _ _ ih => exact ih (isDirectoryAt_makeDirectory h)

theorem makeAll_eq (d : Disk) (p : Place) (names : List String) :
    ∃ entries, (d.makeAll p names).2 = { d with entries } := by
  fun_induction makeAll d p names with
  | case1 d _ => exact ⟨d.entries, rfl⟩
  | case2 _ _ _ ih => exact ih
  | case3 _ _ _ ih => exact ih
  | case4 _ _ _ ih => exact ih
  | case5 _ _ _ _ _ _ _ _ ih => exact ih
  | case6 d _ _ _ _ _ _ => exact ⟨d.entries, rfl⟩
  | case7 _ _ _ _ _ _ _ _ ih => exact ih

theorem here_makeAll (d : Disk) (p : Place) (names : List String) : (d.makeAll p names).2.here = d.here := by
  obtain ⟨entries, h⟩ := makeAll_eq d p names
  rw [h]

theorem fileAt?_makeDirectory (hp : d.node? p = none) (q : Place) :
    (d.makeDirectory p).fileAt? q = d.fileAt? q := by
  by_cases hq : q = []
  · subst hq
    rfl
  · rw [fileAt?, fileAt?, node?_of_ne_nil hq, node?_of_ne_nil hq, makeDirectory, Catalog.get?_insert]
    by_cases htext : q.text = p.text
    · rw [node?_of_ne_nil (ne_nil_of_none hp), ← htext] at hp
      rw [if_pos htext, hp]
    · rw [if_neg htext]

theorem fileAt?_makeAll (d : Disk) (p : Place) (names : List String) (q : Place) :
    (d.makeAll p names).2.fileAt? q = d.fileAt? q := by
  fun_induction makeAll d p names with
  | case1 => rfl
  | case2 _ _ _ ih => exact ih
  | case3 _ _ _ ih => exact ih
  | case4 _ _ _ ih => exact ih
  | case5 _ _ _ _ _ _ _ _ ih => exact ih
  | case6 => rfl
  | case7 _ _ _ _ _ _ _ hnode ih => rw [ih, fileAt?_makeDirectory hnode]

theorem isDirectoryAt_of_makeAll {paved : Bool} (h : d.makeAll p names = (paved, d'))
    (hq : d.isDirectoryAt q = true) : d'.isDirectoryAt q = true := by
  have hmake : (d.makeAll p names).2.isDirectoryAt q = true := isDirectoryAt_makeAll hq
  rwa [h] at hmake

theorem paved_of_makeAll (hg : d.IsGrounded p) (h : d.makeAll p names = (true, d')) (last : String) :
    d'.Paved p (names ++ [last]) := by
  fun_induction makeAll d p names with
  | case1 d p =>
    obtain rfl : d = d' := congrArg Prod.snd h
    exact ⟨hg p List.prefix_rfl, trivial⟩
  | case2 d p names ih =>
    exact ⟨isDirectoryAt_of_makeAll h (hg p List.prefix_rfl), ih (isGrounded_nil d) h⟩
  | case3 d p names ih => exact ⟨isDirectoryAt_of_makeAll h (hg p List.prefix_rfl), ih hg h⟩
  | case4 d p names ih => exact ⟨isDirectoryAt_of_makeAll h (hg p List.prefix_rfl), ih hg.dropLast h⟩
  | case5 d p name names hslash hdot hup hnode ih =>
    have hfollow : follow p name = p ++ [name] := follow_name hslash hdot hup
    refine ⟨isDirectoryAt_of_makeAll h (hg p List.prefix_rfl), ?_⟩
    rw [hfollow]
    exact ih (hg.concat (by simp [isDirectoryAt, hnode])) h
  | case6 => cases h
  | case7 d p name names hslash hdot hup _ ih =>
    have hfollow : follow p name = p ++ [name] := follow_name hslash hdot hup
    have hg' : (d.makeDirectory (p ++ [name])).IsGrounded p :=
      fun q hq ↦ isDirectoryAt_makeDirectory (hg q hq)
    refine ⟨isDirectoryAt_of_makeAll h (hg' p List.prefix_rfl), ?_⟩
    rw [hfollow]
    exact ih (hg'.concat (isDirectoryAt_makeDirectory_self d _)) h

theorem Paved.isDirectoryAt (h : d.Paved p (names ++ [last])) : d.isDirectoryAt p := by
  cases names with
  | nil => exact h.1
  | cons => exact h.1

theorem Paved.makeAll (h : d.Paved p (names ++ [last])) : d.makeAll p names = (true, d) := by
  fun_induction Disk.makeAll d p names with
  | case1 => rfl
  | case2 _ _ _ ih => exact ih h.2
  | case3 _ _ _ ih => exact ih h.2
  | case4 _ _ _ ih => exact ih h.2
  | case5 _ _ name _ hslash hdot hup _ ih =>
    have hrest := h.2
    rw [follow_name hslash hdot hup] at hrest
    exact ih hrest
  | case6 d p name names hslash hdot hup e hne he =>
    have hrest := h.2.isDirectoryAt
    rw [follow_name hslash hdot hup, Disk.isDirectoryAt, beq_iff_eq, he] at hrest
    exact absurd (Option.some.inj hrest) hne
  | case7 d p name names hslash hdot hup hnode =>
    have hrest := h.2.isDirectoryAt
    rw [follow_name hslash hdot hup, isDirectoryAt_of_none hnode] at hrest
    cases hrest

theorem Paved.canLook {name : String} (h : d.isDirectoryAt p) :
    d.canLook (p ++ [name]) = decide (name.utf8ByteSize ≤ maxComponentBytes) := by
  have hfile : d.fileAt? p = none := fileAt?_of_isDirectoryAt h
  simp [Disk.canLook, Place.name, hfile]

theorem Paved.enginePlace? (h : d.Paved p names) (hw : w.Paved p names) :
    d.enginePlace? p names = w.enginePlace? p names := by
  fun_induction Disk.enginePlace? d p names with
  | case1 => rfl
  | case2 _ _ ih => exact ih h.2 hw.2
  | case3 _ _ ih => exact ih h.2 hw.2
  | case4 _ _ ih => exact ih h.2 hw.2
  | case5 p name names hslash hdot hup hno =>
    rw [Paved.canLook h.1, ← Paved.canLook hw.1] at hno
    rw [Disk.enginePlace?.eq_5 _ _ _ _ hslash hdot hup, if_pos hno]
  | case6 p name names hslash hdot hup hno ih =>
    have hrest := h.2
    have hrest' := hw.2
    rw [follow_name hslash hdot hup] at hrest hrest'
    rw [Paved.canLook h.1, ← Paved.canLook hw.1] at hno
    rw [Disk.enginePlace?.eq_5 _ _ _ _ hslash hdot hup, if_neg hno]
    exact ih hrest hrest'

theorem makeAll_atWork (d : Disk) (program : Nat) (p : Place) (names : List String) :
    ({ d with program } : Disk).makeAll p names =
      ((d.makeAll p names).1, { (d.makeAll p names).2 with program }) := by
  fun_induction makeAll d p names with
  | case1 => rfl
  | case2 _ _ _ ih => rw [makeAll.eq_2, ih]
  | case3 _ _ _ ih => rw [makeAll.eq_3, ih]
  | case4 _ _ _ ih => rw [makeAll.eq_4, ih]
  | case5 d p name names hslash hdot hup hnode ih =>
    have hnode' : ({ d with program } : Disk).node? (p ++ [name]) = some .directory := hnode
    rw [makeAll.eq_5 _ _ _ _ hslash hdot hup, hnode', ← ih]
  | case6 d p name names hslash hdot hup e hne he =>
    have he' : ({ d with program } : Disk).node? (p ++ [name]) = some e := he
    rw [makeAll.eq_5 _ _ _ _ hslash hdot hup, he']
    cases e with
    | directory => exact absurd rfl hne
    | file n => rfl
  | case7 d p name names hslash hdot hup hnode ih =>
    have hnode' : ({ d with program } : Disk).node? (p ++ [name]) = none := hnode
    rw [makeAll.eq_5 _ _ _ _ hslash hdot hup, hnode', ← ih]
    rfl

/-- Whether a path can be that of a database, and leads to a place along directories. -/
structure Leads (w : Disk) (path : String) (p : Place) : Prop where
  bounded : path.utf8ByteSize ≤ maxPathBytes
  short : hasLongComponent path = false
  named : components path ≠ [] ∧ components path ≠ ["/"]
  clean : ((components path).dropLast.any fun c ↦ c.toList.contains '\x00') = false
  paved : w.Paved w.here (components path)
  place : w.databasePlace? path = some p

theorem databasePlace?_congr (hhere : d'.here = d.here)
    (hplace : d'.enginePlace? d.here (components path) = d.enginePlace? d.here (components path)) :
    d'.databasePlace? path = d.databasePlace? path := by
  rw [databasePlace?, databasePlace?, hhere, hplace]

theorem enginePlace?_of_databasePlace? (h : d.databasePlace? path = some p) :
    d.enginePlace? d.here (components path) = some p := by
  obtain ⟨q, hq, hbound⟩ := Option.bind_eq_some_iff.1 h
  split at hbound
  · cases hbound
  · cases hbound
    exact hq

theorem enginePlace?_congr (h : ∀ q, d'.fileAt? q = d.fileAt? q) (p : Place) (names : List String) :
    d'.enginePlace? p names = d.enginePlace? p names := by
  have hlook : d'.canLook = d.canLook := by
    funext q
    rw [canLook, canLook, h]
  fun_induction enginePlace? d p names with
  | case1 => rfl
  | case2 _ _ ih => exact ih
  | case3 _ _ ih => exact ih
  | case4 _ _ ih => exact ih
  | case5 p name names hslash hdot hup hno =>
    rw [enginePlace?.eq_5 _ _ _ _ hslash hdot hup, hlook, if_pos hno]
  | case6 p name names hslash hdot hup hno ih =>
    rw [enginePlace?.eq_5 _ _ _ _ hslash hdot hup, hlook, if_neg hno]
    exact ih

theorem makeParent_eq_true_iff : Connection.makeParent d path = (true, d') ↔
    (components path ≠ [] ∧ components path ≠ ["/"]) ∧
      ((components path).dropLast.any fun c ↦ c.toList.contains '\x00') = false ∧
      d.makeAll d.here (components path).dropLast = (true, d') := by
  simp only [Connection.makeParent, makeDirectories]
  split
  next h =>
    simp only [Bool.or_eq_true, List.isEmpty_iff, beq_iff_eq] at h
    simp only [Prod.mk.injEq, Bool.false_eq_true, false_and, false_iff]
    exact fun ⟨⟨hnil, hroot⟩, _⟩ ↦ h.elim hnil hroot
  next h =>
    simp only [Bool.or_eq_true, List.isEmpty_iff, beq_iff_eq, not_or] at h
    split
    next hnul => simp only [hnul, Prod.mk.injEq, Bool.false_eq_true, Bool.true_eq_false, false_and, and_false]
    next hnul => exact ⟨fun hall ↦ ⟨h, eq_false_of_ne_true hnul, hall⟩, fun hall ↦ hall.2.2⟩

theorem makeParent_adds (d : Disk) (path : String) :
    (∃ entries, (Connection.makeParent d path).2 = { d with entries }) ∧
      (∀ q, (Connection.makeParent d path).2.fileAt? q = d.fileAt? q) ∧
      ∀ q, d.isDirectoryAt q = true → (Connection.makeParent d path).2.isDirectoryAt q = true := by
  have hsame : (∃ entries, d = { d with entries }) ∧ (∀ q, d.fileAt? q = d.fileAt? q) ∧
      ∀ q, d.isDirectoryAt q = true → d.isDirectoryAt q = true :=
    ⟨⟨d.entries, rfl⟩, fun _ ↦ rfl, fun _ h ↦ h⟩
  simp only [Connection.makeParent, makeDirectories]
  split
  · exact hsame
  · split
    · exact hsame
    · exact ⟨makeAll_eq d d.here _, fileAt?_makeAll d d.here _, fun q hq ↦ isDirectoryAt_makeAll hq⟩

theorem databasePlace?_atWork (d : Disk) (program : Nat) (path : String) :
    ({ d with program } : Disk).databasePlace? path = d.databasePlace? path := by
  have hfiles : ∀ q, ({ d with program } : Disk).fileAt? q = d.fileAt? q := fun _ ↦ rfl
  exact databasePlace?_congr rfl (enginePlace?_congr hfiles _ _)

theorem makeParent_atWork (d : Disk) (program : Nat) (path : String) :
    Connection.makeParent { d with program } path =
      ((Connection.makeParent d path).1, { (Connection.makeParent d path).2 with program }) := by
  simp only [Connection.makeParent, makeDirectories]
  split
  · rfl
  · split
    · rfl
    · exact makeAll_atWork d program d.here _

theorem checkPath_eq_ok_iff : Connection.checkPath d path = .ok () ↔
    path.utf8ByteSize ≤ maxPathBytes ∧ hasLongComponent path = false ∧ d.isDirectory path = false := by
  rw [Connection.checkPath]
  split
  · simp; omega
  · split
    · simp_all
    · split <;> simp_all

theorem leads_of_makeParent (hg : d.IsGrounded d.here) (hcheck : Connection.checkPath d path = .ok ())
    (hmake : Connection.makeParent d path = (true, w)) (hplace : w.databasePlace? path = some p) :
    w.Leads path p := by
  obtain ⟨hbounded, hshort, -⟩ := checkPath_eq_ok_iff.1 hcheck
  obtain ⟨hnamed, hclean, hall⟩ := makeParent_eq_true_iff.1 hmake
  have hhere : w.here = d.here := by
    have h := here_makeAll d d.here (components path).dropLast
    rwa [hall] at h
  have hpaved := paved_of_makeAll hg hall ((components path).getLast hnamed.1)
  rw [List.dropLast_concat_getLast hnamed.1] at hpaved
  exact ⟨hbounded, hshort, hnamed, hclean, hhere ▸ hpaved, hplace⟩

/-- A disk with the directories of another one, whatever files there are. -/
structure SameDirectories (w d : Disk) : Prop where
  here : d.here = w.here
  directory : ∀ q, d.isDirectoryAt q = w.isDirectoryAt q

theorem Leads.again {n : Nat} (h : w.Leads path p) (hw : w.SameDirectories d)
    (hnode : d.node? p = some (.file n)) :
    Connection.checkPath d path = .ok () ∧ Connection.makeParent d path = (true, d) ∧
      d.databasePlace? path = some p := by
  have hpaved : d.Paved d.here (components path) := by
    rw [hw.here]
    exact h.paved.mono fun q hq ↦ (hw.directory q).trans hq
  have hplace : d.databasePlace? path = some p := by
    rw [← h.place]
    refine databasePlace?_congr hw.here (Paved.enginePlace? ?_ h.paved)
    rw [← hw.here]
    exact hpaved
  refine ⟨checkPath_eq_ok_iff.2 ⟨h.bounded, h.short, ?_⟩, makeParent_eq_true_iff.2 ⟨h.named, h.clean, ?_⟩, hplace⟩
  · rw [isDirectory]
    split
    next r hr =>
      rw [find?_eq hr (enginePlace?_of_databasePlace? hplace)]
      exact isDirectoryAt_of_file hnode
    · rfl
  · have hsplit : d.Paved d.here ((components path).dropLast ++ [(components path).getLast h.named.1]) := by
      rwa [List.dropLast_concat_getLast h.named.1]
    exact hsplit.makeAll

end Gatekeeper.Disk
