import Gatekeeper.Disk.Tree

namespace Gatekeeper

namespace Disk

def maxEnginePathBytes : Nat := 512

/-- Bytes that the name of a journal adds to that of its database. -/
def journalSuffixBytes : Nat := 8

def journalOf (p : Place) : Place := p.beside "-journal"

def logOf (p : Place) : Place := p.beside "-wal"

def indexOf (p : Place) : Place := p.beside "-shm"

def lockOf (p : Place) : Place := p.beside ".lock"

/-- Whether the engine can look whether there is something at a place: nothing on the way is a file. -/
def canLook (d : Disk) (p : Place) : Bool :=
  decide (p.name.utf8ByteSize ≤ Path.maxComponentBytes) && (d.fileAt? p.dropLast).isNone

/-- Goes from a place along components, by their names alone, whether or not there is anything. -/
def enginePlace? (d : Disk) (p : Place) : List String → Option Place
  | [] => some p
  | "/" :: names => enginePlace? d [] names
  | "." :: names => enginePlace? d p names
  | ".." :: names => enginePlace? d p.dropLast names
  | name :: names =>
    if maxEnginePathBytes ≤ Place.bytes (p ++ [name]) ∨ !d.canLook (p ++ [name]) then none
    else enginePlace? d (p ++ [name]) names

def databasePlace? (d : Disk) (path : String) : Option Place :=
  (d.enginePlace? d.here (Path.components path)).bind fun p ↦
    if maxEnginePathBytes < p.bytes + journalSuffixBytes then none else some p

def session? (d : Disk) (number : Nat) : Option Session :=
  d.sessions.find? fun s ↦ s.number == number

def setSession (d : Disk) (s : Session) : Disk :=
  { d with sessions := d.sessions.map fun t ↦ if t.number = s.number then s else t }

def addSession (d : Disk) (s : Session) : Nat × Disk :=
  let s := { s with number := d.opened, program := d.program }
  (d.opened, { d with sessions := s :: d.sessions, opened := d.opened + 1 })

def othersOn (d : Disk) (s : Session) : List Session :=
  d.sessions.filter fun t ↦ t.file == s.file && t.number != s.number

def logIsShared (d : Disk) (s : Session) : Bool := (d.othersOn s).any fun t ↦ t.log.isSome

/-- Whether others keep a session from having the file to itself. -/
def isContended (d : Disk) (s : Session) : Bool := s.locksFile && d.logIsShared s

/-- Whether a file is locked for a session because it or another program has locked it once and for
all. -/
def isShutOut (d : Disk) (s : Session) : Bool :=
  s.locksFile && (d.othersOn s).any fun t ↦
    t.program != s.program && (t.locking == .exclusive || (s.locking == .exclusive && t.log.isSome))

/-- Whether the place of a session still leads to its file; only the usual ways to lock notice. -/
def hasMoved (d : Disk) (s : Session) (p : Place) : Bool :=
  s.locksFile && d.fileAt? p != some s.file

end Disk

end Gatekeeper
