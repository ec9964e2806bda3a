import Gatekeeper.Proofs.Catalog
import Gatekeeper.Proofs.Database.Operations
import Gatekeeper.Proofs.Database.Untrusted

namespace Gatekeeper

namespace Database

variable {M : KeyStore} {i : Identity} {k : Key}

/-- The tables that say what a store in memory says. -/
def mirror (M : KeyStore) : Database where
  versions := some [.integer schemaVersion]
  keys := some (M.keys.map fun _ k ↦ Cell.blob k.bytes).table

theorem prepare_mirror (M : KeyStore) : (mirror M).prepare = .ok none := rfl

theorem insert_mirror (hi : checkIdentity i = .ok ()) (h : M.keys.contains i.name = false) (k : Key) :
    (mirror M).insert i k = .ok (mirror ⟨M.keys.insert i.name k⟩) := by
  have hnew : (M.keys.map fun _ k ↦ Cell.blob k.bytes).contains i.name = false :=
    (Catalog.contains_map _ _ _).trans h
  refine insert_eq_ok_iff.2 ⟨hi, _, rfl, (Catalog.contains_table _ _).trans hnew, ?_⟩
  rw [mirror, mirror, Catalog.insert_table hnew, ← Catalog.insert_map]

theorem insert_mirror_of_contains (hi : checkIdentity i = .ok ()) (h : M.keys.contains i.name = true) (k : Key) :
    (mirror M).insert i k = .error (.duplicate i.name) := by
  have hc : (M.keys.map fun _ k ↦ Cell.blob k.bytes).table.contains i.name = true := by
    rw [Catalog.contains_table, Catalog.contains_map, h]
  unfold Database.insert
  rw [hi]
  exact if_pos hc

theorem revoke_mirror (M : KeyStore) (i : Identity) :
    (mirror M).revoke i = .ok ((M.revoke i).1, mirror (M.revoke i).2) := by
  refine revoke_eq_ok_iff.2 ⟨_, rfl, ?_, ?_⟩
  · rw [Catalog.contains_table, Catalog.contains_map]
    rfl
  · rw [mirror, mirror, Catalog.erase_table, Catalog.erase_map]
    rfl

theorem lookup_mirror (M : KeyStore) (i : Identity) : (mirror M).lookup i = M.lookup i := by
  have hkeys : (mirror M).keys = some (M.keys.map fun _ k ↦ Cell.blob k.bytes).table := rfl
  have hrow := Catalog.get?_table (M.keys.map fun _ k ↦ Cell.blob k.bytes) i.name
  rw [Catalog.get?_map] at hrow
  rw [KeyStore.lookup]
  cases hget : M.keys.get? i.name with
  | none =>
    rw [hget] at hrow
    exact lookup_of_no_row hkeys hrow
  | some k =>
    rw [hget] at hrow
    rw [lookup_of_row hkeys hrow, keyOf_blob]
    rfl

theorem identities_mirror (M : KeyStore) : (mirror M).identities = .ok M.identities := by
  refine (identities_of_names rfl (Catalog.mapM_name?_table _)).trans ?_
  rw [Catalog.keys_map]
  rfl

end Database

end Gatekeeper
