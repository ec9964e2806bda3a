import Gatekeeper.Operation.Handler
import Gatekeeper.Text.Blank

namespace Gatekeeper

structure ServiceSettings where
  operations : Option String := none
  settings : HandlerSettings := []
deriving Inhabited

def ServiceSettings.operationsModule (s : ServiceSettings) : Option String :=
  (s.operations.map Text.trim).filter (!·.isEmpty)

end Gatekeeper
