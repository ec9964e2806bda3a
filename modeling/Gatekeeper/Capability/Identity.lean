import Gatekeeper.Digest.Sha256

namespace Gatekeeper

structure Identity where
  name : String
deriving DecidableEq, Inhabited

/-- The hash of the name in hexadecimal, which stands for the identity in the audit trail. -/
def Identity.fingerprint (i : Identity) : String :=
  Text.Hex.encode (Digest.Sha256.digest (Bytes.ofString i.name))

end Gatekeeper
