import Gatekeeper.Capability.Store
import Gatekeeper.Settings.Database
import Gatekeeper.Settings.Violation

namespace Gatekeeper

inductive StoreKind where
  | memory
  | sqlite
deriving DecidableEq, Repr, Inhabited

namespace StoreKind

def all : List StoreKind := [memory, sqlite]

def name : StoreKind → String
  | memory => "memory"
  | sqlite => "sqlite"

def ofName? (s : String) : Option StoreKind := all.find? fun k ↦ k.name == s

end StoreKind

structure SeededKey where
  identity : String
  key : String
deriving DecidableEq, Repr, Inhabited

namespace SeededKey

def shape : Shape := .record [requiredText "identity", requiredText "key"]

def ofRecord? (v : Json) : Option SeededKey := do
  let identity ← (← v.field? "identity").string?
  let key ← (← v.field? "key").string?
  some { identity, key }

/-- The identity without blanks around it, and the key. -/
def decode (s : SeededKey) : Except Violation (Identity × Key) :=
  let name := Text.trim s.identity
  if name.isEmpty then .error .keyIdentityBlank
  else if Limit.identifierBytes < name.utf8ByteSize then .error .keyIdentityTooLong
  else
    match Key.ofBase64 s.key with
    | .ok k => .ok (⟨name⟩, k)
    | .error e => .error (.key name e)

def checkAll (seen : List String) : List SeededKey → Except Violation Unit
  | [] => .ok ()
  | s :: rest =>
    match s.decode with
    | .error e => .error e
    | .ok (i, _) =>
      if seen.contains i.name then .error (.duplicateIdentity i.name)
      else checkAll (i.name :: seen) rest

end SeededKey

structure StoreSettings where
  kind : StoreKind := .memory
  file : Option Disk.RawPath := none
  busyTimeoutMs : Nat := 5000
  journalMode : JournalMode := .wal
  syncMode : SyncMode := .full
  keys : List SeededKey := []
deriving DecidableEq, Repr, Inhabited

namespace StoreSettings

def shape : Shape :=
  .record [({ name := "type" }, .choice (StoreKind.all.map StoreKind.name)),
    ({ name := "path" }, .optional .text), DatabaseSettings.busyTimeoutShape,
    DatabaseSettings.journalModeShape, DatabaseSettings.syncModeShape,
    ({ name := "keys" }, .list SeededKey.shape)]

def ofRecord (v : Json) : StoreSettings :=
  let database := DatabaseSettings.atPath "" v
  { kind := (((v.field? "type").bind Json.string?).bind StoreKind.ofName?).getD .memory
    file := ((v.field? "path").bind Json.string?).map .text
    busyTimeoutMs := database.busyTimeoutMs
    journalMode := database.journalMode
    syncMode := database.syncMode
    keys := (((v.field? "keys").bind Json.array?).getD []).filterMap SeededKey.ofRecord? }

/-- The path as it is shown, and measured. -/
def path (s : StoreSettings) : Option String := s.file.map Disk.RawPath.shown

def database? (s : StoreSettings) : Option DatabaseSettings :=
  match s.kind, s.file with
  | .sqlite, some file =>
    some { path := file.known, busyTimeoutMs := s.busyTimeoutMs, journalMode := s.journalMode, syncMode := s.syncMode }
  | _, _ => none

def checkKind (s : StoreSettings) : Except Violation Unit :=
  match s.kind, s.path with
  | .memory, some _ => .error .memoryWithPath
  | .memory, none => .ok ()
  | .sqlite, none => .error .databaseWithoutPath
  | .sqlite, some path =>
    match PathFault.of? path with
    | some fault => .error (.path .store fault)
    | none => if s.keys.isEmpty then .ok () else .error .databaseWithKeys

def check (s : StoreSettings) : Except Violation Unit :=
  match s.checkKind with
  | .error e => .error e
  | .ok () =>
    if Limit.seededKeys < s.keys.length then .error .tooManyKeys else SeededKey.checkAll [] s.keys

end StoreSettings

end Gatekeeper
