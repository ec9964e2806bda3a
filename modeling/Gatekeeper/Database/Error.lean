import Gatekeeper.Capability.Store

namespace Gatekeeper

inductive EngineFault where
  | badAddress
  | cannotOpen
  | notADatabase
  | malformed
  | locked
  | readOnly
  | inputOutput
  | noSuchTable
  | wrongType
deriving DecidableEq, Repr

def EngineFault.message : EngineFault → String
  | badAddress => "bad parameter or other API misuse"
  | cannotOpen => "unable to open database file"
  | notADatabase => "file is not a database"
  | malformed => "database disk image is malformed"
  | locked => "database is locked"
  | readOnly => "attempt to write a readonly database"
  | inputOutput => "disk I/O error"
  | noSuchTable => "no such table"
  | wrongType => "Invalid column type"

inductive BadInput where
  | pathTooLong
  | pathComponentTooLong
  | pathIsDirectory
  | identityBlank
  | identityTooLong
deriving DecidableEq, Repr

def BadInput.message : BadInput → String
  | pathTooLong => "store path exceeds length limit"
  | pathComponentTooLong => "store path contains an overlong component"
  | pathIsDirectory => "store path must be a file, not a directory"
  | identityBlank => "identity must be non-empty"
  | identityTooLong => "identity exceeds length limit"

inductive DatabaseError where
  | noDirectory (cause : String)
  | engine (fault : EngineFault)
  | corrupt (identity : Identity) (error : KeyError)
  | version (found : Int)
  | invalid (input : BadInput)
  | duplicate (name : String)
deriving DecidableEq

namespace DatabaseError

/-- The failure in words, which name an identity by its fingerprint where its row is at fault. -/
def message : DatabaseError → String
  | noDirectory cause => s!"sqlite store io error: {cause}"
  | engine fault => s!"sqlite store db error: {fault.message}"
  | corrupt identity error =>
    s!"sqlite store corruption: key for identity {identity.fingerprint}: {error.message}"
  | version found => s!"sqlite store version mismatch: unsupported schema version: {found}"
  | invalid input => s!"sqlite store invalid data: {input.message}"
  | duplicate name => s!"capability already exists: {name}"

def toStoreError : DatabaseError → StoreError
  | duplicate name => .alreadyExists name
  | e => .backend e.message

end DatabaseError

end Gatekeeper
