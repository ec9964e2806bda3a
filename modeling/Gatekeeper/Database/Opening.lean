import Gatekeeper.Database.Address
import Gatekeeper.Database.Engine

namespace Gatekeeper

namespace Engine

open Disk

/-- The name of the session at an address, if connections can have it in common. A file that is kept in
memory can always be found again by a name that starts like that of a place. -/
def sharedName (a : Address) (path : String) : Option String :=
  let isGlobal := !a.isInMemory && a.fileSystem == .memory && 1 < path.length &&
    (path.toList.head?).any fun c ↦ c == '/' || c == '\\'
  if (a.shared && !a.path.isEmpty) || isGlobal then some (a.fileSystem.name ++ ":" ++ path) else none

def named? (d : Disk) (name : Option String) : Option Session :=
  name.bind fun name ↦ d.sessions.find? fun s ↦ s.program == d.program && s.name == some name

def join (s : Session) : Engine Nat := do
  set ((← get).setSession { s with users := s.users + 1 })
  return s.number

def begin (s : Session) : Engine Nat := do
  let (n, d) := (← get).addSession s
  set d
  return n

def newSession (a : Address) (file : Nat) (place : Option Place) (name : Option String) : Session where
  number := 0
  name := name
  file := file
  place := place
  readOnly := a.isReadOnly
  fixed := a.isFixed && (place.isSome || (a.fileSystem == .memory && !a.isInMemory))
  locking := a.locking
  fixedIndex := a.affirms "readonly_shm"

/-- Opens a database that no place leads to. -/
def openHidden (a : Address) : Engine Nat := do
  let d ← get
  let name := sharedName a a.path
  match named? d name with
  | some s =>
    if a.isInMemory then join s else begin (newSession a s.file none name)
  | none =>
    let (file, d) := d.addContent (.bytes [])
    set d
    begin (newSession a file none name)

def openFile (a : Address) (p : Place) : Engine Nat := do
  let d ← get
  let name := sharedName a p.text
  match named? d name with
  | some s => join s
  | none =>
    match if a.access == .create then d.openAt? p else (d.fileAt? p).map (·, d) with
    | none => throw .cannotOpen
    | some (file, d) =>
      set d
      begin (newSession a file (some p) name)

def connect (path : String) : Engine Nat := do
  match Address.parse path with
  | .error e => throw e
  | .ok a =>
    if a.isInMemory || a.path.isEmpty || a.fileSystem == .memory then openHidden a
    else
      match (← get).databasePlace? a.path with
      | none => throw .cannotOpen
      | some p => openFile a p

end Engine

end Gatekeeper
