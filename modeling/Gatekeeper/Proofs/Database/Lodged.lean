import Gatekeeper.Proofs.Disk.Ways
import Gatekeeper.Proofs.Database.Opened

namespace Gatekeeper

open Disk

/-- A place on the directories of a disk, and the number of the file there. -/
structure Site where
  ways : Disk
  place : Place
  file : Nat

/-- What a session is like that was opened at a site in the usual way. -/
structure Session.IsPlain (s : Session) (x : Site) : Prop where
  file : s.file = x.file
  place : s.place = some x.place
  users : s.users = 1
  readOnly : s.readOnly = false
  fixed : s.fixed = false
  locking : s.locking = .usual
  fixedIndex : s.fixedIndex = false

namespace Session.IsPlain

variable {s : Session} {x : Site}

theorem locksFile (h : s.IsPlain x) : s.locksFile = true := by simp [Session.locksFile, h.locking]

theorem withLog (h : s.IsPlain x) (log : Option Nat) (index : LogIndex) :
    ({ s with log, index } : Session).IsPlain x :=
  ⟨h.file, h.place, h.users, h.readOnly, h.fixed, h.locking, h.fixedIndex⟩

end Session.IsPlain

namespace Site

variable {x : Site} {d d' : Disk} {s : Session} {q : Place} {c : Content} {ks : List Nat} {k : Nat}

/-- Whether the file of a site is at its place and nowhere else, and the sessions that have it open are
plain and have the given numbers. -/
structure Lodges (x : Site) (ks : List Nat) (d : Disk) : Prop where
  wellFormed : d.WellFormed
  ways : x.ways.SameDirectories d
  node : d.node? x.place = some (.file x.file)
  only : ∀ q, d.node? q = some (.file x.file) → q.text = x.place.text
  found : ∀ k ∈ ks, ∃ s, d.session? k = some s ∧ s.IsPlain x
  plain : ∀ s ∈ d.sessions, s.file = x.file → s.number ∈ ks ∧ d.session? s.number = some s ∧ s.IsPlain x
  below : ∀ k ∈ ks, k < d.opened

theorem Lodges.ne_nil (h : x.Lodges ks d) : x.place ≠ [] := ne_nil_of_file h.node

theorem Lodges.of_session? (h : x.Lodges ks d) (hk : k ∈ ks) (hs : d.session? k = some s) :
    s.IsPlain x := by
  obtain ⟨t, ht, hplain⟩ := h.found k hk
  rw [hs] at ht
  exact Option.some.inj ht ▸ hplain

theorem Lodges.eq_of_number (h : x.Lodges ks d) (hs : d.session? k = some s) {t : Session}
    (ht : t ∈ d.sessions) (hfile : t.file = x.file) (hnumber : t.number = k) : t = s := by
  have hfound := (h.plain t ht hfile).2.1
  rw [hnumber, hs] at hfound
  exact (Option.some.inj hfound).symm

theorem Lodges.setContent (h : x.Lodges ks d) (n : Nat) (c : Content) : x.Lodges ks (d.setContent n c) where
  wellFormed := h.wellFormed.setContent n c
  ways := ⟨h.ways.here, h.ways.directory⟩
  node := h.node
  only := h.only
  found := h.found
  plain := h.plain
  below := h.below

theorem here_unlink (d : Disk) (q : Place) : (d.unlink q).here = d.here := by
  unfold unlink
  split <;> rfl

theorem opened_unlink (d : Disk) (q : Place) : (d.unlink q).opened = d.opened := by
  unfold unlink
  split <;> rfl

theorem Lodges.unlink (h : x.Lodges ks d) (hq : q.text ≠ x.place.text) : x.Lodges ks (d.unlink q) where
  wellFormed := (extends_unlink d q).wellFormed h.wellFormed
  ways := ⟨(here_unlink d q).trans h.ways.here, fun r ↦ (isDirectoryAt_unlink d r q).trans (h.ways.directory r)⟩
  node := (node?_unlink_of_ne (Ne.symm hq)).trans h.node
  only := fun r hr ↦ h.only r (node?_unlink hr)
  found := by
    intro k hk
    rw [Engine.session?_congr (sessions_unlink d q)]
    exact h.found k hk
  plain := by
    intro s hs
    rw [sessions_unlink] at hs
    rw [Engine.session?_congr (sessions_unlink d q)]
    exact h.plain s hs
  below := by
    rw [opened_unlink]
    exact h.below

theorem Lodges.createFile (h : x.Lodges ks d) (hq : d.node? q = none) (c : Content) :
    x.Lodges ks (d.createFile q c).2 where
  wellFormed := h.wellFormed.createFile q c
  ways := ⟨h.ways.here, fun r ↦ (isDirectoryAt_createFile c hq r).trans (h.ways.directory r)⟩
  node := by
    refine (node?_createFile_of_ne fun htext ↦ ?_).trans h.node
    have hnode := h.node
    rw [node?_of_ne_nil h.ne_nil, htext, ← node?_of_ne_nil (ne_nil_of_none hq), hq] at hnode
    cases hnode
  only := fun r hr ↦ h.only r (node?_of_createFile (h.wellFormed.lt_of_node? h.node) hr)
  found := h.found
  plain := h.plain
  below := h.below

theorem Lodges.setSession (h : x.Lodges ks d) (hs : s.IsPlain x) (hk : s.number ∈ ks)
    (hlog : ∀ n, s.log = some n → n < d.contents.length) : x.Lodges ks (d.setSession s) where
  wellFormed := by
    refine (extends_setSession d ⟨?_, hlog⟩).wellFormed h.wellFormed
    rw [hs.file]
    exact h.wellFormed.lt_of_node? h.node
  ways := ⟨h.ways.here, h.ways.directory⟩
  node := h.node
  only := h.only
  found := by
    intro k hk
    obtain ⟨t, ht, hplain⟩ := h.found k hk
    refine ⟨_, session?_setSession d s ht, ?_⟩
    split
    · exact hs
    · exact hplain
  plain := by
    intro t ht hfile
    obtain ⟨u, hu, rfl⟩ := List.mem_map.1 ht
    obtain ⟨t, ht, -⟩ := h.found s.number hk
    have hset := session?_setSession d s ht
    by_cases hnumber : u.number = s.number
    · rw [if_pos hnumber] at hfile ⊢
      rw [if_pos rfl] at hset
      exact ⟨hk, hset, hs⟩
    · rw [if_neg hnumber] at hfile ⊢
      obtain ⟨hmem, hfound, hplain⟩ := h.plain u hu hfile
      have hset' := session?_setSession d s hfound
      rw [if_neg hnumber] at hset'
      exact ⟨hmem, hset', hplain⟩
  below := h.below

theorem session?_setSession_self (hs : d.session? s.number = some t) :
    (d.setSession s).session? s.number = some s := by
  rw [session?_setSession d s hs, if_pos rfl]

theorem session?_addSession_self (d : Disk) (s : Session) :
    (d.addSession s).2.session? d.opened = some { s with number := d.opened, program := d.program } := by
  simp [session?, addSession]

theorem session?_addSession {k : Nat} (h : k < d.opened) (s : Session) :
    (d.addSession s).2.session? k = d.session? k := by
  have hne : (d.opened == k) = false := by simpa using Nat.ne_of_gt h
  simp [session?, addSession, hne]

theorem Lodges.addSession (h : x.Lodges ks d) (hs : s.IsPlain x) (hlog : s.log = none) :
    x.Lodges (d.opened :: ks) (d.addSession s).2 where
  wellFormed := by
    refine (extends_addSession d ⟨?_, fun n hn ↦ by simp [hlog] at hn⟩).wellFormed h.wellFormed
    rw [hs.file]
    exact h.wellFormed.lt_of_node? h.node
  ways := ⟨h.ways.here, h.ways.directory⟩
  node := h.node
  only := h.only
  found := by
    intro k hk
    rcases List.mem_cons.1 hk with rfl | hk
    · exact ⟨_, session?_addSession_self d s, ⟨hs.file, hs.place, hs.users, hs.readOnly, hs.fixed, hs.locking,
        hs.fixedIndex⟩⟩
    · rw [session?_addSession (h.below k hk)]
      exact h.found k hk
  plain := by
    intro t ht hfile
    rcases List.mem_cons.1 ht with rfl | ht
    · exact ⟨List.mem_cons_self, session?_addSession_self d s, ⟨hs.file, hs.place, hs.users, hs.readOnly,
        hs.fixed, hs.locking, hs.fixedIndex⟩⟩
    · obtain ⟨hmem, hfound, hplain⟩ := h.plain t ht hfile
      rw [session?_addSession (h.below _ hmem)]
      exact ⟨List.mem_cons_of_mem _ hmem, hfound, hplain⟩
  below := by
    intro k hk
    rcases List.mem_cons.1 hk with rfl | hk
    · exact Nat.lt_succ_self _
    · exact Nat.lt_succ_of_lt (h.below k hk)

def without (d : Disk) (k : Nat) : Disk := { d with sessions := d.sessions.filter fun t ↦ t.number ≠ k }

theorem session?_without {k j : Nat} (h : j ≠ k) : (without d k).session? j = d.session? j := by
  rw [session?, session?, without, List.find?_filter]
  congr 1
  funext t
  by_cases ht : t.number = j
  · simp [ht, h]
  · simp [ht]

theorem Lodges.without (h : x.Lodges ks d) (k : Nat) : x.Lodges (ks.filter (· ≠ k)) (without d k) where
  wellFormed := (extends_filterSessions d _).wellFormed h.wellFormed
  ways := ⟨h.ways.here, h.ways.directory⟩
  node := h.node
  only := h.only
  found := by
    intro j hj
    obtain ⟨hj, hne⟩ := List.mem_filter.1 hj
    rw [session?_without (by simpa using hne)]
    exact h.found j hj
  plain := by
    intro t ht hfile
    obtain ⟨ht, hne⟩ := List.mem_filter.1 ht
    obtain ⟨hmem, hfound, hplain⟩ := h.plain t ht hfile
    rw [session?_without (by simpa using hne)]
    exact ⟨List.mem_filter.2 ⟨hmem, hne⟩, hfound, hplain⟩
  below := fun j hj ↦ h.below j (List.mem_filter.1 hj).1

end Site

end Gatekeeper
