import Gatekeeper.Audit
import Gatekeeper.Disk.Tree

namespace Gatekeeper

inductive AuditSink where
  | none
  | errors
  /-- A file, by its number, whatever becomes of its name. -/
  | file (number : Nat)
deriving DecidableEq, Repr

/-- Writes the line of an event; answers what goes to the standard error stream. -/
def AuditSink.record (s : AuditSink) (now : Nat) (e : AuditEvent) (d : Disk) : List String × Disk :=
  match s with
  | none => ([], d)
  | errors => ([e.line now], d)
  | file number => ([], d.append number (Bytes.ofString (e.line now ++ "\n")))

end Gatekeeper
