import Gatekeeper.Database.Error
import Gatekeeper.Database.Table
import Gatekeeper.Settings.Database

namespace Gatekeeper

/-- The tables of a key database, of which either may be missing. What stands in them is not
trusted. -/
structure Database where
  versions : Option (List Cell) := none
  keys : Option KeyTable := none
deriving Inhabited

/-- What the file of a database holds: the tables, and how the engine is to change them. -/
structure Image where
  journal : JournalMode := .delete
  tables : Database := {}
deriving Inhabited

namespace Database

def schemaVersion : Int := 1

def maxIdentityBytes : Nat := 512

/-- The tables with those made that are missing where no version is recorded, or nothing where the
version is that of this schema. -/
def prepare (d : Database) : Except DatabaseError (Option Database) :=
  match d.versions.getD [] with
  | [] => .ok (some { versions := some [.integer schemaVersion], keys := some (d.keys.getD ∅) })
  | .integer found :: _ => if found = schemaVersion then .ok none else .error (.version found)
  | _ :: _ => .error (.engine .wrongType)

def checkIdentity (i : Identity) : Except DatabaseError Unit :=
  if (Text.trim i.name).isEmpty then .error (.invalid .identityBlank)
  else if maxIdentityBytes < i.name.utf8ByteSize then .error (.invalid .identityTooLong)
  else .ok ()

def table (d : Database) : Except DatabaseError KeyTable :=
  match d.keys with
  | some table => .ok table
  | none => .error (.engine .noSuchTable)

def insert (d : Database) (i : Identity) (k : Key) : Except DatabaseError Database := do
  checkIdentity i
  let table ← d.table
  if table.contains i.name then .error (.duplicate i.name)
  else .ok { d with keys := some (table.insert i.name (.blob k.bytes)) }

def revoke (d : Database) (i : Identity) : Except DatabaseError (Bool × Database) := do
  let table ← d.table
  .ok (table.contains i.name, { d with keys := some (table.erase i.name) })

/-- The names in the rows; a row without one makes the engine fail. -/
def identities (d : Database) : Except DatabaseError (List Identity) := do
  let table ← d.table
  match table.rows.mapM Row.name? with
  | some names => .ok (names.map Identity.mk)
  | none => .error (.engine .wrongType)

/-- The key in a cell of an identity's row; the engine hands out bytes for a blob only. -/
def keyOf (i : Identity) : Cell → Except DatabaseError Key
  | .blob bytes =>
    match Key.ofBytes bytes with
    | .ok k => .ok k
    | .error e => .error (.corrupt i e)
  | _ => .error (.engine .wrongType)

def key? (d : Database) (i : Identity) : Except DatabaseError (Option Key) := do
  let table ← d.table
  match table.get? i.name with
  | none => .ok none
  | some cell => (keyOf i cell).map some

def lookup (d : Database) (i : Identity) : Except StoreError Key :=
  match d.key? i with
  | .ok (some k) => .ok k
  | .ok none => .error (.notFound i.name)
  | .error e => .error e.toStoreError

end Database

end Gatekeeper
