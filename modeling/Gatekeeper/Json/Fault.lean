namespace Gatekeeper.Json

inductive Fault where
  /-- The text ended inside a value. -/
  | cutShort
  /-- The text is well formed up to here, but the value is not of the wanted shape. -/
  | mismatch
  | malformed
deriving DecidableEq, Repr

def Fault.message : Fault → String
  | .cutShort => "the text ends inside a value"
  | .mismatch => "the value has another shape"
  | .malformed => "the text is malformed"

end Gatekeeper.Json
