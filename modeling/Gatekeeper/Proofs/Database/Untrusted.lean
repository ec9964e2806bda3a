import Gatekeeper.Proofs.Database.Rows
import Gatekeeper.Proofs.Results
import Gatekeeper.Database.Connection

namespace Gatekeeper

namespace Database

variable {T : Database} {i : Identity} {table : KeyTable}

theorem lookup_of_no_row (hkeys : T.keys = some table) (hrow : table.get? i.name = none) :
    T.lookup i = .error (.notFound i.name) := by
  simp only [lookup, key?, Database.table, hkeys, bind, Except.bind, hrow]

theorem lookup_of_row {cell : Cell} (hkeys : T.keys = some table) (hrow : table.get? i.name = some cell) :
    T.lookup i = (keyOf i cell).mapError DatabaseError.toStoreError := by
  have hkey : T.key? i = (keyOf i cell).map some := by
    simp only [key?, Database.table, hkeys, bind, Except.bind, hrow]
  rw [lookup, hkey]
  cases keyOf i cell with
  | error e => rfl
  | ok k => rfl

theorem keyOf_blob (i : Identity) (k : Key) : keyOf i (.blob k.bytes) = .ok k := by
  have hbytes : Key.ofBytes k.bytes = .ok k := Key.ofBytes_eq_ok_iff.2 rfl
  simp only [keyOf, hbytes]

theorem keyOf_wrongLength (i : Identity) {bytes : Bytes} (h : bytes.length ≠ 32) :
    keyOf i (.blob bytes) = .error (.corrupt i (.length bytes.length)) := by
  have hbytes : Key.ofBytes bytes = .error (.length bytes.length) := dif_neg h
  simp only [keyOf, hbytes]

theorem message_length (n : Nat) :
    (KeyError.length n).message = "capability key must be 32 bytes, got " ++ toString n := by
  have hlength : toString Cipher.Aead.keyBytes = "32" := by decide +kernel
  unfold KeyError.message
  rw [hlength]
  simp [toString]

theorem message_corrupt (i : Identity) (e : KeyError) :
    (DatabaseError.corrupt i e).message =
      "sqlite store corruption: key for identity " ++ i.fingerprint ++ ": " ++ e.message := by
  unfold DatabaseError.message
  simp [toString]

theorem toStoreError_corrupt (i : Identity) (n : Nat) :
    (DatabaseError.corrupt i (.length n)).toStoreError =
      .backend ("sqlite store corruption: key for identity " ++ i.fingerprint ++
        ": capability key must be 32 bytes, got " ++ toString n) := by
  have hwords : ": capability key must be 32 bytes, got " = ": " ++ "capability key must be 32 bytes, got " := by
    simp
  have hmessage := message_corrupt i (.length n)
  rw [message_length] at hmessage
  rw [hwords]
  simp only [String.append_assoc] at hmessage ⊢
  exact congrArg StoreError.backend hmessage

/-- Whether no two rows have one name, as in a table that was made with its primary key. -/
def IsKeyed (T : Database) : Prop := ∀ table, T.keys = some table → table.IsKeyed

theorem lookup_of_wrongLength {bytes : Bytes} (hkeys : T.keys = some table)
    (hrow : table.get? i.name = some (.blob bytes)) (hlength : bytes.length ≠ 32) :
    T.lookup i = .error (.backend ("sqlite store corruption: key for identity " ++ i.fingerprint ++
      ": capability key must be 32 bytes, got " ++ toString bytes.length)) := by
  rw [lookup_of_row hkeys hrow, keyOf_wrongLength i hlength]
  exact congrArg Except.error (toStoreError_corrupt i bytes.length)

end Database

theorem Connection.lookup_of_read {c : Connection} {d : Disk} {T : Database}
    (hread : ((Engine.read c.session).run d).1 = .ok T) (i : Identity) : (c.lookup d i).1 = T.lookup i := by
  cases hrun : (Engine.read c.session).run d with
  | mk r d' =>
    rw [hrun] at hread
    cases hread
    simp only [lookup, hrun]

end Gatekeeper
