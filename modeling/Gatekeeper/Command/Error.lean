import Gatekeeper.Envelope
import Gatekeeper.Server.Startup

namespace Gatekeeper

inductive CommandError where
  | load (e : ConfigurationError)
  | blankIdentity
  | needsDatabase
  | openStore (e : DatabaseError)
  | breakdown
  | mint (e : DatabaseError)
  | revoke (e : DatabaseError)
  | list (e : DatabaseError)
  | key (e : KeyError)
  | paramsTooLong
  | paramsNotObject
  | paramsMalformed (fault : Json.Fault)
  | sealing (e : ChannelError)
  | setup (e : ServerError)
  | serving (e : ServerError)
  | unreachable (url cause : String)
  | refused (status message : String)
  | write (stream cause : String)

namespace CommandError

def maxParamsBytes : Nat := 64 * 1024

def message : CommandError → String
  | load e => s!"config load failed: {e.message}"
  | blankIdentity => "--identity must be non-empty"
  | needsDatabase => "command requires capability_store.type = \"sqlite\""
  | openStore e => s!"store open failed: {e.message}"
  | breakdown => "the database engine broke down"
  | mint e => s!"mint failed: {e.message}"
  | revoke e => s!"revoke failed: {e.message}"
  | list e => s!"list failed: {e.message}"
  | key e => s!"invalid key: {e.message}"
  | paramsTooLong => s!"--params exceeds {maxParamsBytes} bytes"
  | paramsNotObject => "--params must be a JSON object"
  | paramsMalformed fault => s!"--params is not valid JSON: {fault.message}"
  | sealing e => s!"seal failed: {e.message}"
  | setup e => s!"server init failed: {e.message}"
  | serving e => s!"server failed: {e.message}"
  | unreachable url cause => s!"request to {url} failed: {cause}"
  | refused status message => s!"guardian returned {status}: {message}"
  | write stream cause => s!"failed to write to {stream}: {cause}"

end CommandError

end Gatekeeper
