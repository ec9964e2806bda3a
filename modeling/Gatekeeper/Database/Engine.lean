import Gatekeeper.Disk.Sessions

namespace Gatekeeper

/-- A step of the engine. It may fail; what it has done to the disk by then stays done. -/
abbrev Engine := ExceptT EngineFault (StateM Disk)

namespace Engine

open Disk

def session (number : Nat) : Engine Session := do
  match (← get).session? number with
  | some s => return s
  | none => throw .cannotOpen

def content (s : Session) : Engine Content := return ((← get).content? s.file).getD (.bytes [])

def image (s : Session) : Engine Image := do
  match (← content s).image? with
  | .ok i => return i
  | .error e => throw e

/-- Whether the first byte of a file is there and not zero, as that of a journal is that is needed. -/
def isMarked : Content → Bool
  | .bytes b => b.head?.any (· != 0)
  | _ => true

/-- Deals with a journal that was left behind. One beside a file without pages is not needed; any
other holds nothing of use, but only a session that can have the file to itself does away with it. -/
def settleJournal (s : Session) (p : Place) : Engine Unit := do
  let d ← get
  let journal := journalOf p
  if d.isPresent journal then
    if (← content s).isBlank then
      if !(s.readOnly && s.locksFile) then set (d.unlink journal)
    else
      match (d.fileAt? journal).bind d.content? with
      | none => throw .inputOutput
      | some c =>
        if isMarked c then
          if s.readOnly then throw .readOnly
          else if d.isContended s then throw .locked
          else set (d.unlink journal)

def openIndex (s : Session) (p : Place) : Engine Unit := do
  let d ← get
  let others := d.othersOn s
  match others.find? fun t ↦ t.index != .missing with
  | some t => set (d.setSession { s with index := t.index })
  | none =>
    let readable := d.setSession { s with index := .readOnly }
    let writable := d.setSession { s with index := .writable }
    if (s :: others).any fun t ↦ t.locking == .exclusive then set writable
    else
      match d.node? (indexOf p), s.fixedIndex with
      | some .directory, _ => set readable
      | some (.file _), true => set readable
      | some (.file n), false => set (writable.setContent n .index)
      | none, true => throw .cannotOpen
      | none, false => set (writable.createFile (indexOf p) .index).2

/-- Makes sure that there still is something with the name of a database; whoever may use the database
may use its log and its journal. -/
def needName (p : Place) : Engine Unit := do
  if ((← get).node? p).isNone then throw .inputOutput

def openLog (s : Session) (p : Place) : Engine Unit := do
  if !s.canLog then throw .cannotOpen
  needName p
  match (← get).openAt? (logOf p) with
  | none => throw .cannotOpen
  | some (n, d) =>
    let s := { s with log := some n }
    set (d.setSession s)
    openIndex s p

/-- Finds the log of a database that a session has found none of before: one that lies beside the file
with its pages, or the one that the file asks for. -/
def findLog (s : Session) (p : Place) : Engine Unit := do
  let d ← get
  let isBlank := (← content s).isBlank
  if d.isPresent (logOf p) then
    if !isBlank then openLog s p
    else if d.isDirectoryAt (logOf p) then throw .inputOutput
    else set (d.unlink (logOf p))
  else if !isBlank then
    if (← image s).journal == .wal then openLog s p

def settle (s : Session) (p : Place) : Engine Unit := do
  if (← get).isShutOut s then throw .locked
  if s.locking == .byDirectory && ((← get).node? (lockOf p)).isSome then throw .locked
  settleJournal s p
  findLog s p

/-- The tables as a session sees them: as the log has them, if the database has a log, and else as
the file has them. -/
def visible (s : Session) : Engine Database := do
  match s.log.bind (← get).content? with
  | some (.log tables) => return tables
  | _ => return (← image s).tables

/-- The tables of a session. Reading finds out whether there is a log by now. -/
def read (number : Nat) : Engine Database := do
  let s ← session number
  match s.place with
  | some p =>
    if s.log.isNone && !s.fixed then settle s p
    else if s.log.isSome && s.index == .missing then openIndex s p
  | none => pure ()
  visible (← session number)

def writeFile (s : Session) (i : Image) : Engine Unit := do
  let d ← get
  match s.place with
  | none => set (d.setContent s.file (.image i))
  | some p =>
    needName p
    let journal := journalOf p
    if !(← content s).isBlank && d.hasMoved s p then throw .readOnly
    else if d.isDirectoryAt journal || decide (Path.maxComponentBytes < journal.name.utf8ByteSize) then
      throw .cannotOpen
    else if d.isContended s then throw .locked
    else set ((d.unlink journal).setContent s.file (.image i))

/-- Leaves tables in the place of those that a session has just read; without any, nothing is written,
but the session must be one that can write. -/
def write (number : Nat) (tables? : Option Database) : Engine Unit := do
  let s ← session number
  if s.cannotWrite then throw .readOnly
  match tables?, s.log with
  | none, _ => return
  | some tables, some n => set ((← get).setContent n (.log tables))
  | some tables, none => writeFile s { ← image s with tables }

end Engine

end Gatekeeper
