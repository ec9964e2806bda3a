import Gatekeeper.Disk.Tree
import Gatekeeper.Settings.Configuration

namespace Gatekeeper.Configuration

def usualName : String := "guardian.toml"

def resolve (environment asked : Option String) : Except ConfigurationError String :=
  match asked, environment with
  | some path, _ => .ok path
  | none, some path =>
    if Disk.Path.maxPathBytes < path.utf8ByteSize then .error (.invalid (.path .configuration .tooLong))
    else .ok path
  | none, none => .ok usualName

def ofContent (c : Content) : Except ConfigurationError Configuration :=
  if c.exceeds Limit.configurationBytes then .error (.invalid .fileTooLong)
  else
    match c.text? with
    | some s => ofToml s
    | none => .error (.invalid .fileNotText)

def load (d : Disk) (environment asked : Option String) : Except ConfigurationError Configuration := do
  let path ← resolve environment asked
  match PathFault.ofLengths? path with
  | some fault => .error (.invalid (.path .configuration fault))
  | none =>
    match d.read? path with
    | some c => ofContent c
    | none => .error (.unreadable "no such file")

end Gatekeeper.Configuration
