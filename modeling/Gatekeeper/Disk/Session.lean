import Gatekeeper.Disk.Path

namespace Gatekeeper

inductive Locking where
  | usual
  /-- The file is locked once and for all, so that its log needs no index that others could read. -/
  | exclusive
  /-- The lock is a directory beside the file. -/
  | byDirectory
  | none
deriving DecidableEq, Repr

inductive LogIndex where
  | missing
  /-- The index can be read only, so that the log cannot be written either. -/
  | readOnly
  | writable
deriving DecidableEq, Repr

structure Session where
  number : Nat
  program : Nat := 0
  /-- How many connections have the session in common. -/
  users : Nat := 1
  /-- The name by which other connections can find the session. -/
  name : Option String := .none
  /-- The number of the file, whatever has become of its name. -/
  file : Nat
  place : Option Disk.Place := .none
  readOnly : Bool := false
  /-- Whether the file is taken for one that nobody changes, so that nothing beside it counts. -/
  fixed : Bool := false
  locking : Locking := .usual
  fixedIndex : Bool := false
  /-- The number of the log, once the session has found the database to have one. -/
  log : Option Nat := .none
  index : LogIndex := .missing
deriving DecidableEq, Repr

namespace Session

def locksFile (s : Session) : Bool := s.locking == .usual || s.locking == .exclusive

def canLog (s : Session) : Bool := s.locksFile

def cannotWrite (s : Session) : Bool :=
  s.readOnly || s.fixed || (s.log.isSome && s.index != .writable)

end Session

end Gatekeeper
