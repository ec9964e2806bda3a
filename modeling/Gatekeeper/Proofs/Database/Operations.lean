import Gatekeeper.Proofs.Database.Opened
import Gatekeeper.Proofs.Database.Rows
import Gatekeeper.Proofs.Results

namespace Gatekeeper

open Engine

variable {α : Type} {d : Disk} {T : Database}

/-- Whether there is a key table, without a row for an identity. -/
def Database.Lacks (T : Database) (i : Identity) : Prop :=
  ∃ table, T.keys = some table ∧ table.get? i.name = none

theorem Database.Lacks.isSome {i : Identity} (h : T.Lacks i) : T.keys.isSome := by
  obtain ⟨table, h, -⟩ := h
  simp [h]

namespace Connection

theorem run_extends (c : Connection) (f : Transaction α) (hd : d.WellFormed) :
    d.Extends (c.run d f).2 := by
  have h := safe_read c.session d hd
  unfold Yields at h
  unfold run
  split
  next hread => rwa [hread] at h
  next tables d₁ hread =>
    rw [hread] at h
    exact h.trans (c.conclude_extends _ (h.wellFormed hd))

theorem lookup_extends (c : Connection) (i : Identity) (hd : d.WellFormed) :
    d.Extends (c.lookup d i).2 := by
  have h := safe_read c.session d hd
  unfold Yields at h
  unfold lookup
  split
  next hread => rwa [hread] at h
  next hread => rwa [hread] at h

theorem insert_extends (c : Connection) (i : Identity) (k : Key) (hd : d.WellFormed) :
    d.Extends (c.insert d i k).2 := by
  unfold insert
  split
  · exact .refl d
  · exact c.run_extends _ hd

theorem mint_extends (c : Connection) (i : Identity) (fresh : Key) (hd : d.WellFormed) :
    d.Extends (c.mint d i fresh).2 := by
  have h := c.insert_extends i fresh hd
  unfold mint
  split <;> simp_all

theorem revoke_extends (c : Connection) (i : Identity) (hd : d.WellFormed) :
    d.Extends (c.revoke d i).2 := c.run_extends _ hd

theorem conclude_steady {c : Connection} (h : Steady d c.session T) (hkeys : T.keys.isSome)
    (x : Except DatabaseError (α × Option Database)) :
    (∃ a tables?, x = .ok (a, tables?) ∧ (c.conclude d x).1 = .ok a ∧
      Steady (c.conclude d x).2 c.session (tables?.getD T)) ∨
    (∃ e, (c.conclude d x).1 = .error e) ∧ (c.conclude d x).2 = d := by
  unfold conclude
  split
  next e => exact .inr ⟨⟨e, rfl⟩, rfl⟩
  next a tables? =>
    have hwrite := h.write hkeys tables?
    unfold Yields at hwrite
    split
    next hw =>
      rw [hw] at hwrite
      exact .inl ⟨a, tables?, rfl, rfl, hwrite⟩
    next e _ hw =>
      rw [hw] at hwrite
      exact .inr ⟨⟨_, rfl⟩, hwrite⟩

theorem run_steady {c : Connection} (h : Steady d c.session T) (hkeys : T.keys.isSome)
    (f : Transaction α) :
    (∃ a tables?, f T = .ok (a, tables?) ∧ (c.run d f).1 = .ok a ∧
      Steady (c.run d f).2 c.session (tables?.getD T)) ∨
    (∃ e, (c.run d f).1 = .error e) ∧ Steady (c.run d f).2 c.session T := by
  have hread := h.read
  unfold Yields at hread
  unfold run
  split
  next e _ hr =>
    rw [hr] at hread
    exact .inr ⟨⟨_, rfl⟩, hread.1⟩
  next tables d₁ hr =>
    rw [hr] at hread
    obtain ⟨hsteady, htables⟩ := hread
    obtain rfl := htables tables rfl
    rcases conclude_steady hsteady hkeys (f tables) with hok | ⟨herror, hsame⟩
    · exact .inl hok
    · exact .inr ⟨herror, hsame.symm ▸ hsteady⟩

theorem run_ok {c : Connection} (hd : d.WellFormed) {f : Transaction α} {a : α}
    (hf : ∀ T b, f T = .ok b → T.keys.isSome) (hrun : (c.run d f).1 = .ok a) :
    ∃ T tables?, f T = .ok (a, tables?) ∧ Steady (c.run d f).2 c.session (tables?.getD T) := by
  have hread := read_steady c.session hd
  unfold Yields at hread
  unfold run at hrun ⊢
  split at hrun
  · cases hrun
  next tables d₁ hr =>
    rw [hr] at hread
    have hsteady := hread.2 tables rfl
    have hkeys : tables.keys.isSome := by
      cases hx : f tables with
      | error e =>
        rw [hx] at hrun
        cases hrun
      | ok b => exact hf tables b hx
    rcases conclude_steady hsteady hkeys (f tables) with ⟨a', tables?, hx, ha, hs⟩ | ⟨⟨e, he⟩, -⟩
    · obtain rfl : a' = a := Except.ok.inj (ha.symm.trans hrun)
      exact ⟨tables, tables?, hx, hs⟩
    · cases he.symm.trans hrun

theorem lookup_steady {c : Connection} (h : Steady d c.session T) (i : Identity) :
    Steady (c.lookup d i).2 c.session T ∧
      ((c.lookup d i).1 = T.lookup i ∨ ∃ e, (c.lookup d i).1 = .error e) := by
  have hread := h.read
  unfold Yields at hread
  unfold lookup
  split
  next e _ hr =>
    rw [hr] at hread
    exact ⟨hread.1, .inr ⟨_, rfl⟩⟩
  next tables d₁ hr =>
    rw [hr] at hread
    exact ⟨hread.1, .inl (by rw [hread.2 tables rfl])⟩

end Connection

namespace Database

variable {i j : Identity} {T' : Database}

theorem table_eq_ok_iff {table : KeyTable} : T.table = .ok table ↔ T.keys = some table := by
  unfold Database.table
  cases T.keys <;> simp

theorem insert_eq_ok_iff {k : Key} : T.insert i k = .ok T' ↔
    checkIdentity i = .ok () ∧ ∃ table, T.keys = some table ∧ table.contains i.name = false ∧
      T' = { T with keys := some (table.insert i.name (.blob k.bytes)) } := by
  simp only [insert, bind_eq_ok_iff, table_eq_ok_iff]
  constructor
  · rintro ⟨_, hcheck, table, hkeys, h⟩
    split at h
    · cases h
    next hc =>
      cases h
      exact ⟨hcheck, table, hkeys, by simpa using hc, rfl⟩
  · rintro ⟨hcheck, table, hkeys, hc, rfl⟩
    exact ⟨(), hcheck, table, hkeys, by rw [if_neg (by simp [hc])]⟩

theorem revoke_eq_ok_iff {b : Bool} : T.revoke i = .ok (b, T') ↔
    ∃ table, T.keys = some table ∧ b = table.contains i.name ∧
      T' = { T with keys := some (table.erase i.name) } := by
  simp only [revoke, bind_eq_ok_iff, table_eq_ok_iff, Except.ok.injEq, Prod.mk.injEq]
  constructor
  · rintro ⟨table, hkeys, rfl, rfl⟩
    exact ⟨table, hkeys, rfl, rfl⟩
  · rintro ⟨table, hkeys, rfl, rfl⟩
    exact ⟨table, hkeys, rfl, rfl⟩

theorem identities_of_names {table : KeyTable} {names : List String} (hkeys : T.keys = some table)
    (hnames : table.rows.mapM Row.name? = some names) : T.identities = .ok (names.map Identity.mk) := by
  rw [identities, table_eq_ok_iff.2 hkeys, ok_bind, hnames]

theorem Lacks.lookup (h : T.Lacks i) : T.lookup i = .error (.notFound i.name) := by
  obtain ⟨table, hkeys, hi⟩ := h
  simp [Database.lookup, key?, Database.table, hkeys, hi, bind, Except.bind]

theorem Lacks.insert {k : Key} (h : T.Lacks i) (hj : j ≠ i) (hins : T.insert j k = .ok T') :
    T'.Lacks i := by
  obtain ⟨table, hkeys, hi⟩ := h
  obtain ⟨-, table', hkeys', -, rfl⟩ := insert_eq_ok_iff.1 hins
  obtain rfl : table = table' := Option.some.inj (hkeys.symm.trans hkeys')
  have hname : i.name ≠ j.name := fun h ↦ hj (congrArg Identity.mk h).symm
  exact ⟨_, rfl, by rw [KeyTable.get?_insert_of_ne hname, hi]⟩

theorem Lacks.revoke {b : Bool} (h : T.Lacks i) (hrev : T.revoke j = .ok (b, T')) : T'.Lacks i := by
  obtain ⟨table, hkeys, hi⟩ := h
  obtain ⟨table', hkeys', -, rfl⟩ := revoke_eq_ok_iff.1 hrev
  obtain rfl : table = table' := Option.some.inj (hkeys.symm.trans hkeys')
  refine ⟨_, rfl, ?_⟩
  rw [KeyTable.get?_erase, hi, ite_self]

theorem lacks_of_revoke {b : Bool} (hrev : T.revoke i = .ok (b, T')) : T'.Lacks i := by
  obtain ⟨table, hkeys, -, rfl⟩ := revoke_eq_ok_iff.1 hrev
  exact ⟨_, rfl, by rw [KeyTable.get?_erase, if_pos rfl]⟩

end Database

namespace Connection

variable {c : Connection} {i j : Identity}

theorem insert_lacks {k : Key} (h : Steady d c.session T) (hT : T.Lacks i)
    (hj : (c.insert d j k).1 = .ok () → j ≠ i) :
    ∃ T', Steady (c.insert d j k).2 c.session T' ∧ T'.Lacks i := by
  unfold insert at hj ⊢
  split
  · exact ⟨T, h, hT⟩
  next hcheck =>
    rw [hcheck] at hj
    rcases run_steady h hT.isSome fun b ↦ (b.insert j k).map fun b ↦ ((), some b) with
      ⟨a, tables?, hf, ha, hsteady⟩ | ⟨-, hsteady⟩
    · cases hins : T.insert j k with
      | error e => simp [hins, Except.map] at hf
      | ok T' =>
        simp only [hins, Except.map, Except.ok.injEq, Prod.mk.injEq, true_and] at hf
        obtain rfl := hf
        exact ⟨T', hsteady, hT.insert (hj ha) hins⟩
    · exact ⟨T, hsteady, hT⟩

theorem revoke_transaction {T : Database} {b : Bool} {tables? : Option Database}
    (h : ((T.revoke i).map fun (revoked, b) ↦ (revoked, if revoked then some b else none)) =
      .ok (b, tables?)) : ∃ T', T.revoke i = .ok (b, T') ∧ tables? = if b then some T' else none := by
  cases hr : T.revoke i with
  | error e => simp [hr, Except.map] at h
  | ok p =>
    simp only [hr, Except.map, Except.ok.injEq, Prod.mk.injEq] at h
    obtain ⟨rfl, rfl⟩ := h
    exact ⟨p.2, rfl, rfl⟩

theorem revoke_lacks (h : Steady d c.session T) (hT : T.Lacks i) (j : Identity) :
    ∃ T', Steady (c.revoke d j).2 c.session T' ∧ T'.Lacks i := by
  unfold revoke
  rcases run_steady h hT.isSome fun b ↦ (b.revoke j).map fun (revoked, b) ↦
    (revoked, if revoked then some b else none) with ⟨b, tables?, hf, -, hsteady⟩ | ⟨-, hsteady⟩
  · obtain ⟨T', hr, rfl⟩ := revoke_transaction hf
    refine ⟨_, hsteady, ?_⟩
    cases b with
    | true => exact hT.revoke hr
    | false => exact hT
  · exact ⟨T, hsteady, hT⟩

theorem lacks_of_revoke {b : Bool} (hd : d.WellFormed) (hrev : (c.revoke d i).1 = .ok b) :
    ∃ T, Steady (c.revoke d i).2 c.session T ∧ T.Lacks i := by
  have hkeys (T : Database) (p : Bool × Option Database)
      (hp : ((T.revoke i).map fun (revoked, b) ↦ (revoked, if revoked then some b else none)) = .ok p) :
      T.keys.isSome := by
    obtain ⟨T', hr, -⟩ := revoke_transaction hp
    obtain ⟨table, hk, -⟩ := Database.revoke_eq_ok_iff.1 hr
    simp [hk]
  obtain ⟨T, tables?, hf, hsteady⟩ := run_ok hd hkeys hrev
  obtain ⟨T', hr, rfl⟩ := revoke_transaction hf
  refine ⟨_, hsteady, ?_⟩
  cases b with
  | true => exact Database.lacks_of_revoke hr
  | false =>
    obtain ⟨table, hk, hb, -⟩ := Database.revoke_eq_ok_iff.1 hr
    exact ⟨table, hk, by simpa [KeyTable.contains] using hb⟩

end Connection

end Gatekeeper
