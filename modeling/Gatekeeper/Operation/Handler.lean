import Gatekeeper.Json.Value

namespace Gatekeeper

abbrev Parameters := List (String × Json)

abbrev HandlerSettings := List (String × Json)

inductive HandlerError where
  | invalidParameters (message : String)
  | failed (message : String)
  | init (message : String)
deriving DecidableEq, Repr

def HandlerError.message : HandlerError → String
  | invalidParameters m => s!"invalid parameters: {m}"
  | failed m => s!"operation error: {m}"
  | init m => s!"handler initialization failed: {m}"

inductive Outcome where
  | value (v : Json)
  | nothing
  | error (e : HandlerError)
  | breakdown

variable (σ : Type)

/-- Takes the parameters of a call and the state that all handlers share. -/
abbrev Handler := Parameters → σ → Outcome × σ

abbrev Constructor := HandlerSettings → Except HandlerError (Handler σ)

end Gatekeeper
