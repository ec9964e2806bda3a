import Gatekeeper.Database.Engine

namespace Gatekeeper

namespace Disk

/-- Carries the log of a session over into the file, and takes log and index away. -/
def carryOver (d : Disk) (s : Session) (p : Place) (log : Nat) : Disk :=
  let d :=
    match d.content? log with
    | some (.log tables) =>
      let i := ((d.content? s.file).bind fun c ↦ c.image?.toOption).getD { journal := .wal }
      d.setContent s.file (.image { i with tables })
    | _ => d
  let d := d.unlink (logOf p)
  if s.locking == .exclusive then d else d.unlink (indexOf p)

/-- Takes a user from a session, which ends with its last one. The log stays behind where the session
cannot write, where others still hold on to it, and where the name of the file is gone. -/
def leave (d : Disk) (number : Nat) : Disk :=
  match d.session? number with
  | none => d
  | some s =>
    if 1 < s.users then d.setSession { s with users := s.users - 1 }
    else
      let rest := { d with sessions := d.sessions.filter fun t ↦ t.number ≠ number }
      match s.place, s.log with
      | some p, some log =>
        if s.readOnly || s.index != .writable || d.logIsShared s || d.hasMoved s p then rest
        else rest.carryOver s p log
      | _, _ => rest

end Disk

namespace Engine

open Disk

def setJournal (s : Session) (mode : JournalMode) : Engine Unit := do
  let i ← image s
  if i.journal != mode then
    if s.readOnly then throw .readOnly
    writeFile s { i with journal := mode }

/-- Turns the journal of the database of a session into a mode. Where there can be no log, the mode is
left as it is; a log is given up only by a session that can have the file to itself. A session that
others have joined is taken to know of its log already. -/
def turn (number : Nat) (mode : JournalMode) : Engine Unit := do
  if (← session number).users ≤ 1 then
    let _ ← read number
  let s ← session number
  match s.place, mode, s.log with
  | some _, .wal, none =>
    if s.canLog && !s.fixed then
      let _ ← read number
      let s ← session number
      if s.log.isNone then setJournal s .wal
  | some p, .delete, some log =>
    let d ← get
    if s.readOnly || d.isContended s then throw .locked
    let free := { s with log := none, index := .missing }
    set (d.setSession free)
    if s.index != .writable then throw .readOnly
    set ((d.setSession free).carryOver s p log)
    settleJournal free p
    setJournal free .delete
  | _, _, _ => return

end Engine

end Gatekeeper
