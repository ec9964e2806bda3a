import Gatekeeper.Settings.Configuration

namespace Gatekeeper.Configuration

def exampleLines : List String :=
  ["[guardian_service]",
    "operations = \"guardian.operations.basic\"",
    "",
    "[server]",
    "bind = \"127.0.0.1:8080\"",
    "max_body_bytes = 1048576",
    "",
    "[server.audit]",
    "enabled = true",
    "# path = \"guardian-audit.jsonl\"",
    "",
    "[capability_store]",
    "type = \"memory\"",
    "",
    "[[capability_store.keys]]",
    "identity = \"cap-1\"",
    "key = \"AAECAwQFBgcICQoLDA0ODxAREhMUFRYXGBkaGxwdHh8=\"",
    "",
    "[[endpoints]]",
    "endpoint_id = \"ledger\"",
    "url = \"https://ledger.example.com\""]

def exampleText : String := String.join (exampleLines.map (· ++ "\n"))

end Gatekeeper.Configuration
