import Gatekeeper.Request

namespace Gatekeeper

/-- Whether changes go to a log of their own first, or the old pages are kept until the end. -/
inductive JournalMode where
  | wal
  | delete
deriving DecidableEq, Repr, Inhabited

namespace JournalMode

def all : List JournalMode := [wal, delete]

def name : JournalMode → String
  | wal => "wal"
  | delete => "delete"

def ofName? (s : String) : Option JournalMode := all.find? fun m ↦ m.name == s

end JournalMode

inductive SyncMode where
  | full
  | normal
deriving DecidableEq, Repr, Inhabited

namespace SyncMode

def all : List SyncMode := [full, normal]

def name : SyncMode → String
  | full => "full"
  | normal => "normal"

def ofName? (s : String) : Option SyncMode := all.find? fun m ↦ m.name == s

end SyncMode

structure DatabaseSettings where
  path : String
  busyTimeoutMs : Nat := 5000
  journalMode : JournalMode := .wal
  syncMode : SyncMode := .full
deriving DecidableEq, Repr, Inhabited

namespace DatabaseSettings

/-- The longest wait in milliseconds that a connection can be told. -/
def maxBusyTimeoutMs : Nat := 2147483647

def busyTimeoutShape : Field × Shape := ({ name := "busy_timeout_ms" }, .natural)

def journalModeShape : Field × Shape :=
  ({ name := "journal_mode" }, .choice (JournalMode.all.map JournalMode.name))

def syncModeShape : Field × Shape := ({ name := "sync_mode" }, .choice (SyncMode.all.map SyncMode.name))

def shape : Shape := .record [requiredText "path", busyTimeoutShape, journalModeShape, syncModeShape]

def atPath (path : String) (v : Json) : DatabaseSettings :=
  let standard : DatabaseSettings := { path }
  { standard with
    busyTimeoutMs := ((v.field? "busy_timeout_ms").bind Json.natural?).getD standard.busyTimeoutMs
    journalMode := (((v.field? "journal_mode").bind Json.string?).bind JournalMode.ofName?).getD
      standard.journalMode
    syncMode := (((v.field? "sync_mode").bind Json.string?).bind SyncMode.ofName?).getD
      standard.syncMode }

def ofRecord? (v : Json) : Option DatabaseSettings :=
  ((v.field? "path").bind Json.string?).map fun path ↦ atPath path v

end DatabaseSettings

end Gatekeeper
