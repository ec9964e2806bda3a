import Gatekeeper.Proofs.Database.Operations
import Gatekeeper.Server.Startup

namespace Gatekeeper

structure Vault where
  store : ServedStore
  disk : Disk

namespace Vault

def ofConnection {α : Type} (c : Connection) (p : Except DatabaseError α × Disk) :
    Except StoreError α × Vault :=
  (p.1.mapError DatabaseError.toStoreError, ⟨.database c, p.2⟩)

def insert (v : Vault) (i : Identity) (k : Key) : Except StoreError Unit × Vault :=
  match v.store with
  | .memory s =>
    match s.insert i k with
    | .ok s => (.ok (), { v with store := .memory s })
    | .error e => (.error e, v)
  | .database c => ofConnection c (c.insert v.disk i k)

def mint (v : Vault) (i : Identity) (fresh : Key) : Except StoreError Key × Vault :=
  match v.store with
  | .memory s =>
    match s.mint i fresh with
    | .ok (k, s) => (.ok k, { v with store := .memory s })
    | .error e => (.error e, v)
  | .database c => ofConnection c (c.mint v.disk i fresh)

def revoke (v : Vault) (i : Identity) : Except StoreError Bool × Vault :=
  match v.store with
  | .memory s => (.ok (s.revoke i).1, { v with store := .memory (s.revoke i).2 })
  | .database c => ofConnection c (c.revoke v.disk i)

def lookup (v : Vault) : Lookup := v.store.lookup v.disk

def consult (v : Vault) (i? : Option Identity) : Vault :=
  match i? with
  | some i => { v with disk := v.store.afterLookup v.disk i }
  | none => v

def InMemory (v : Vault) : Prop := ∃ s, v.store = .memory s

/-- A vault as a service has it: in memory, or a database that was opened on a disk. -/
inductive Open : Vault → Prop
  | memory (s : KeyStore) (d : Disk) : Open ⟨.memory s, d⟩
  | database {d d' : Disk} {settings : DatabaseSettings} {c : Connection} (hd : d.WellFormed)
      (h : Connection.openDatabase d settings = (.opened c, d')) : Open ⟨.database c, d'⟩

def Sound (v : Vault) : Prop :=
  match v.store with
  | .memory _ => True
  | .database _ => v.disk.WellFormed

def Lacks (v : Vault) (i : Identity) : Prop :=
  match v.store with
  | .memory s => s.keys.get? i.name = none
  | .database c => ∃ T, Engine.Steady v.disk c.session T ∧ T.Lacks i

variable {v : Vault} {i j : Identity} {k : Key}

theorem insert_database (c : Connection) (d : Disk) (i : Identity) (k : Key) :
    insert ⟨.database c, d⟩ i k = ofConnection c (c.insert d i k) := rfl

theorem revoke_database (c : Connection) (d : Disk) (i : Identity) :
    revoke ⟨.database c, d⟩ i = ofConnection c (c.revoke d i) := rfl

theorem ofConnection_eq_ok_iff {α : Type} {c : Connection} {p : Except DatabaseError α × Disk} {a : α} :
    (ofConnection c p).1 = .ok a ↔ p.1 = .ok a := mapError_eq_ok_iff

theorem mint_eq_insert (v : Vault) (i : Identity) (k : Key) :
    v.mint i k = ((v.insert i k).1.map fun _ ↦ k, (v.insert i k).2) := by
  obtain ⟨s | c, d⟩ := v
  · simp only [mint, insert, KeyStore.mint]
    cases s.insert i k <;> rfl
  · simp only [mint, insert, ofConnection, Connection.mint]
    rcases c.insert d i k with ⟨_ | _, d'⟩ <;> rfl

theorem Open.sound (h : v.Open) : v.Sound := by
  cases h with
  | memory => trivial
  | @database d d' settings c hd h =>
    have hext := Connection.openDatabase_extends settings hd
    rw [h] at hext
    exact hext.wellFormed hd

theorem sound_memory (s : KeyStore) (d : Disk) : Sound ⟨.memory s, d⟩ := trivial

theorem sound_ofConnection {α : Type} (c : Connection) {p : Except DatabaseError α × Disk}
    (h : p.2.WellFormed) : (ofConnection c p).2.Sound := h

theorem insert_sound (h : v.Sound) (i : Identity) (k : Key) : (v.insert i k).2.Sound := by
  obtain ⟨s | c, d⟩ := v
  · simp only [insert]
    split
    · exact sound_memory _ d
    · exact sound_memory s d
  · have hext := c.insert_extends i k (d := d) h
    rw [insert_database]
    exact sound_ofConnection c (hext.wellFormed h)

theorem mint_sound (h : v.Sound) (i : Identity) (k : Key) : (v.mint i k).2.Sound := by
  rw [mint_eq_insert]
  exact insert_sound h i k

theorem revoke_sound (h : v.Sound) (i : Identity) : (v.revoke i).2.Sound := by
  obtain ⟨s | c, d⟩ := v
  · exact sound_memory _ d
  · have hext := c.revoke_extends i (d := d) h
    rw [revoke_database]
    exact sound_ofConnection c (hext.wellFormed h)

theorem consult_sound (h : v.Sound) (i? : Option Identity) : (v.consult i?).Sound := by
  cases i? with
  | none => exact h
  | some i =>
    obtain ⟨s | c, d⟩ := v
    · exact sound_memory s d
    · have hext := c.lookup_extends i (d := d) h
      simp only [consult, ServedStore.afterLookup, ServedStore.ask]
      exact hext.wellFormed h

theorem lacks_memory {s : KeyStore} {d : Disk} :
    Lacks ⟨.memory s, d⟩ i ↔ s.keys.get? i.name = none := Iff.rfl

theorem lacks_database {c : Connection} {d : Disk} :
    Lacks ⟨.database c, d⟩ i ↔ ∃ T, Engine.Steady d c.session T ∧ T.Lacks i := Iff.rfl

theorem Lacks.lookup (h : v.Lacks i) : ∃ e, v.lookup i = .error e := by
  obtain ⟨s | c, d⟩ := v
  · rw [lacks_memory] at h
    exact ⟨.notFound i.name, by simp only [Vault.lookup, ServedStore.lookup, ServedStore.ask, KeyStore.lookup, h]⟩
  · obtain ⟨T, hsteady, hT⟩ := lacks_database.1 h
    rcases (Connection.lookup_steady hsteady i).2 with hl | he
    · exact ⟨.notFound i.name, hl.trans hT.lookup⟩
    · exact he

theorem Lacks.consult (h : v.Lacks i) (i? : Option Identity) : (v.consult i?).Lacks i := by
  cases i? with
  | none => exact h
  | some j =>
    obtain ⟨s | c, d⟩ := v
    · exact h
    · obtain ⟨T, hsteady, hT⟩ := lacks_database.1 h
      exact lacks_database.2 ⟨T, (Connection.lookup_steady hsteady j).1, hT⟩

theorem Lacks.insert (h : v.Lacks i) (hj : (v.insert j k).1 = .ok () → j ≠ i) :
    (v.insert j k).2.Lacks i := by
  obtain ⟨s | c, d⟩ := v
  · rw [lacks_memory] at h
    simp only [Vault.insert, KeyStore.insert] at hj ⊢
    by_cases hc : s.keys.contains j.name
    · simp only [hc, if_true]
      exact h
    · simp only [hc, Bool.false_eq_true, if_false] at hj ⊢
      have hname : i.name ≠ j.name := fun hn ↦ hj trivial (congrArg Identity.mk hn).symm
      rw [lacks_memory, Catalog.get?_insert, if_neg hname, h]
  · obtain ⟨T, hsteady, hT⟩ := lacks_database.1 h
    rw [insert_database] at hj ⊢
    refine lacks_database.2 (Connection.insert_lacks hsteady hT fun hok ↦ hj ?_)
    exact ofConnection_eq_ok_iff.2 hok

theorem Lacks.mint (h : v.Lacks i) (hj : (∃ k', (v.mint j k).1 = .ok k') → j ≠ i) :
    (v.mint j k).2.Lacks i := by
  rw [mint_eq_insert] at hj ⊢
  refine h.insert fun hok ↦ hj ⟨k, ?_⟩
  rw [hok]
  rfl

theorem Lacks.revoke (h : v.Lacks i) (j : Identity) : (v.revoke j).2.Lacks i := by
  obtain ⟨s | c, d⟩ := v
  · rw [lacks_memory] at h
    simp only [Vault.revoke, KeyStore.revoke]
    rw [lacks_memory, Catalog.get?_erase, h, ite_self]
  · obtain ⟨T, hsteady, hT⟩ := lacks_database.1 h
    rw [revoke_database]
    exact lacks_database.2 (Connection.revoke_lacks hsteady hT j)

/-- A store in memory always carries out a removal; a database says whether it did. -/
theorem lacks_of_revoke (h : v.Sound) (hrev : v.InMemory ∨ ∃ b, (v.revoke i).1 = .ok b) :
    (v.revoke i).2.Lacks i := by
  obtain ⟨s | c, d⟩ := v
  · simp only [Vault.revoke, KeyStore.revoke]
    rw [lacks_memory, Catalog.get?_erase, if_pos rfl]
  · rcases hrev with ⟨s, hs⟩ | ⟨b, hb⟩
    · cases hs
    · rw [revoke_database] at hb ⊢
      exact lacks_database.2 (Connection.lacks_of_revoke h (ofConnection_eq_ok_iff.1 hb))

end Vault

end Gatekeeper
