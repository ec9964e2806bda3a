import Gatekeeper.Command.Run
import Gatekeeper.Database.Layout
import Gatekeeper.Operation.Counter
import Std.Time.DateTime.Timestamp

namespace Gatekeeper.Main

/-- The directory that paths start from, whatever its real name. -/
def workingPlace : Disk.Place := ["work"]

def emptyDisk : Disk := { entries := Catalog.ofList [("/work", .directory)], here := workingPlace }

def bytesOf : Content → Bytes
  | .bytes b => b
  | .image i => Database.Layout.write i
  | _ => []

def readReal (path : String) : IO (Option Bytes) := do
  try
    return some (← IO.FS.readBinFile path).data.toList
  catch _ => return none

def isRealDirectory (path : String) : IO Bool := do
  try
    let _ ← IO.FS.realPath (path ++ "/.")
    return true
  catch _ => return false

def readInto (d : Disk) (path : String) : IO Disk := do
  let components := Disk.Path.components path
  if ← isRealDirectory path then return (d.makeDirectories components).2
  match ← readReal path with
  | none => return d
  | some content =>
    match (d.makeDirectories components.dropLast).2.touchFile? path with
    | some (n, d) => return d.setContent n (.bytes content)
    | none => return d

/-- Takes the names of a journal and of a log that another program has left beside a database and that only
that program can make use of. -/
def keepCompanions (d : Disk) (path : String) : IO Disk :=
  ["-journal", "-wal"].foldlM
    (fun d suffix ↦ do
      if ((← readReal (path ++ suffix)).getD []).isEmpty then return d
      else return (d.makeDirectories (Disk.Path.components (path ++ suffix))).2)
    d

def databaseFile? (s : DatabaseSettings) : Option String :=
  match Address.parse s.path with
  | .ok a => if a.isInMemory || a.path.isEmpty then none else some a.path
  | .error _ => none

structure Files where
  database : Option String := none
  audit : Option String := none

def filesOf (d : Disk) (configPath config : Option String) : Files :=
  match Configuration.load d configPath config with
  | .ok c => { database := c.store.database?.bind databaseFile?, audit := c.server.audit.path.map Text.trim }
  | .error _ => {}

def configOf : Invocation → Option String
  | .command (.serve config) => config
  | .command (.validate config) => config
  | .command (.mint _ config) => config
  | .command (.revoke _ config) => config
  | .command (.list config) => config
  | _ => none

def writeBack (before after : Disk) (path : String) : IO Unit := do
  let old := (before.read? path).map bytesOf
  match (after.read? path).map bytesOf with
  | some new =>
    if old ≠ some new then
      let parent := (Disk.Path.components path).dropLast
      if !parent.isEmpty then IO.FS.createDirAll ("/".intercalate parent)
      IO.FS.writeBinFile path ⟨new.toArray⟩
  | none => if old.isSome then IO.FS.removeFile path

def freshnessOf (n : Nat) : Freshness where
  sessionKey := ⟨Bytes.ofNat 32 n, Bytes.length_ofNat _ _⟩
  wrapNonce := Bytes.ofNat 12 (n / Nat.pow 256 32)
  iv := Bytes.ofNat 12 (n / Nat.pow 256 44)
  wrapNonce_length := Bytes.length_ofNat _ _
  iv_length := Bytes.length_ofNat _ _

def randomNumber (bytes : USize) : IO Nat := do
  let b ← IO.getRandomBytes bytes
  return Bytes.toNat b.data.toList

def carryOut (i : Invocation) : IO UInt32 := do
  let configPath ← IO.getEnv "GUARDIAN_CONFIG"
  let config := configOf i
  let d ← match Configuration.resolve configPath config with
    | .ok path => readInto emptyDisk path
    | .error _ => pure emptyDisk
  let files := filesOf d configPath config
  let paths := files.database.toList ++ files.audit.toList
  let d ← paths.foldlM readInto d
  let d ← files.database.toList.foldlM keepCompanions d
  let now ← Std.Time.Timestamp.now
  let w : Surroundings :=
    { configPath
      now := now.toMillisecondsSinceUnixEpoch.val.toNat
      freshKey := ⟨Bytes.ofNat 32 (← randomNumber 32), Bytes.length_ofNat _ _⟩
      freshness := freshnessOf (← randomNumber 56) }
  let (ending, scene) := i.run w ModuleRegistry.builtin { disk := d }
  paths.forM (writeBack d scene.disk)
  IO.print scene.output
  scene.errors.forM IO.eprintln
  return if ending = .success then 0 else 1

end Gatekeeper.Main

def main (words : List String) : IO UInt32 :=
  match Gatekeeper.CommandLine.parse words with
  | .ok i => Gatekeeper.Main.carryOut i
  | .error .help => do
    IO.println Gatekeeper.Invocation.usageText
    return 0
  | .error _ => do
    IO.eprintln Gatekeeper.Invocation.usageText
    return 2
