namespace Gatekeeper

structure Draft where
  key : String
  identity : String
  method : String
  params : Option String := none
  nonce : Option String := none
deriving DecidableEq, Repr

inductive Command where
  | serve (config : Option String)
  | validate (config : Option String)
  | showExample
  | mint (identity : String) (config : Option String)
  | revoke (identity : String) (config : Option String)
  | list (config : Option String)
  | sealDraft (draft : Draft)
  | invoke (url : String) (draft : Draft)
deriving DecidableEq, Repr

inductive Invocation where
  | version
  | usage
  | command (c : Command)
deriving DecidableEq, Repr

end Gatekeeper
