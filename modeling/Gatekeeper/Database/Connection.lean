import Gatekeeper.Database.Edit
import Gatekeeper.Database.Journal
import Gatekeeper.Database.Opening

namespace Gatekeeper

structure Connection where
  session : Nat
deriving DecidableEq, Repr

inductive Opening where
  | opened (c : Connection)
  | refused (e : DatabaseError)
  /-- The engine breaks down over a wait that it has no number for. -/
  | breakdown

namespace Connection

/-- A transaction, which reads the tables and may put others in their place. -/
abbrev Transaction (α : Type) := Database → Except DatabaseError (α × Option Database)

def conclude (c : Connection) (d : Disk) : Except DatabaseError (α × Option Database) → Except DatabaseError α × Disk
  | .error e => (.error e, d)
  | .ok (a, tables?) =>
    match (Engine.write c.session tables?).run d with
    | (.ok (), d) => (.ok a, d)
    | (.error e, d) => (.error (.engine e), d)

def run (c : Connection) (d : Disk) (f : Transaction α) : Except DatabaseError α × Disk :=
  match (Engine.read c.session).run d with
  | (.error e, d) => (.error (.engine e), d)
  | (.ok tables, d) => c.conclude d (f tables)

def ask (c : Connection) (d : Disk) (f : Database → Except DatabaseError α) : Except DatabaseError α × Disk :=
  match (Engine.read c.session).run d with
  | (.error e, d) => (.error (.engine e), d)
  | (.ok tables, d) => (f tables, d)

def checkPath (d : Disk) (path : String) : Except BadInput Unit :=
  if Disk.Path.maxPathBytes < path.utf8ByteSize then .error .pathTooLong
  else if Disk.Path.hasLongComponent path then .error .pathComponentTooLong
  else if d.isDirectory path then .error .pathIsDirectory
  else .ok ()

def makeParent (d : Disk) (path : String) : Bool × Disk :=
  let components := Disk.Path.components path
  if components.isEmpty || components == ["/"] then (false, d)
  else d.makeDirectories components.dropLast

def close (c : Connection) (d : Disk) : Disk := d.leave c.session

def prepare (c : Connection) (d : Disk) : Except DatabaseError Unit × Disk :=
  match c.ask d Database.prepare with
  | (.error e, d) => (.error e, d)
  | (.ok none, d) => (.ok (), d)
  | (.ok (some tables), d) => c.conclude d (.ok ((), some tables))

def setUp (c : Connection) (d : Disk) (s : DatabaseSettings) : Opening × Disk :=
  match (Engine.turn c.session s.journalMode).run d with
  | (.error e, d) => (.refused (.engine e), c.close d)
  | (.ok (), d) =>
    if DatabaseSettings.maxBusyTimeoutMs < s.busyTimeoutMs then (.breakdown, c.close d)
    else
      match c.prepare d with
      | (.error e, d) => (.refused e, c.close d)
      | (.ok (), d) => (.opened c, d)

/-- Opens a database: the path is checked, the directory made, then the journal turned, and only
then the version looked at. A disk that a refusal leaves behind may have new directories, a new
empty file, or another journal. -/
def openDatabase (d : Disk) (s : DatabaseSettings) : Opening × Disk :=
  match checkPath d s.path with
  | .error e => (.refused (.invalid e), d)
  | .ok () =>
    match makeParent d s.path with
    | (false, d) => (.refused (.noDirectory "store path missing parent directory"), d)
    | (true, d) =>
      match (Engine.connect s.path).run d with
      | (.error e, d) => (.refused (.engine e), d)
      | (.ok session, d) => setUp ⟨session⟩ d s

/-- Gives an identity a key; a bad identity does not even touch the database. -/
def insert (c : Connection) (d : Disk) (i : Identity) (k : Key) : Except DatabaseError Unit × Disk :=
  match Database.checkIdentity i with
  | .error e => (.error e, d)
  | .ok () => c.run d fun b ↦ (b.insert i k).map fun b ↦ ((), some b)

def mint (c : Connection) (d : Disk) (i : Identity) (fresh : Key) : Except DatabaseError Key × Disk :=
  match c.insert d i fresh with
  | (.error e, d) => (.error e, d)
  | (.ok (), d) => (.ok fresh, d)

def revoke (c : Connection) (d : Disk) (i : Identity) : Except DatabaseError Bool × Disk :=
  c.run d fun b ↦ (b.revoke i).map fun (revoked, b) ↦ (revoked, if revoked then some b else none)

def identities (c : Connection) (d : Disk) : Except DatabaseError (List Identity) × Disk :=
  c.ask d Database.identities

def lookup (c : Connection) (d : Disk) (i : Identity) : Except StoreError Key × Disk :=
  match (Engine.read c.session).run d with
  | (.error e, d) => (.error (DatabaseError.engine e).toStoreError, d)
  | (.ok tables, d) => (tables.lookup i, d)

end Connection

namespace Disk

def visit (d : Disk) (path : String) (f : Connection → Disk → Option α × Disk) : Option α × Disk :=
  match (Engine.connect path).run d with
  | (.error _, d) => (none, d)
  | (.ok session, d) =>
    let (a?, d) := f ⟨session⟩ d
    (a?, d.leave session)

/-- Edits the database with a path from outside; without an answer the edit failed. -/
def edit (d : Disk) (path : String) (f : Database → Database.Edited) : Option Nat × Disk :=
  d.visit path fun c d ↦
    let (n, d) := c.run d fun b ↦
      match f b with
      | some edited => .ok edited
      | none => .error (.engine .noSuchTable)
    (n.toOption, d)

def journalName (d : Disk) (session : Nat) : String :=
  match d.session? session with
  | none => JournalMode.delete.name
  | some s =>
    if s.place.isNone then "memory" else if s.log.isSome then JournalMode.wal.name else JournalMode.delete.name

def inspect (d : Disk) (path : String) : Option (Database.Contents × String) × Disk :=
  d.visit path fun c d ↦
    match c.ask d fun b ↦ .ok b.contents? with
    | (.ok (some contents), d) => (some (contents, d.journalName c.session), d)
    | (_, d) => (none, d)

end Disk

end Gatekeeper
