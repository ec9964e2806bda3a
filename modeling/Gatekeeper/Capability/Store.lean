import Gatekeeper.Capability.Identity
import Gatekeeper.Capability.Key
import Gatekeeper.Catalog

namespace Gatekeeper

inductive StoreError where
  | notFound (name : String)
  | alreadyExists (name : String)
  | backend (message : String)
deriving DecidableEq, Repr

namespace StoreError

def message : StoreError → String
  | notFound name => s!"capability not found: {name}"
  | alreadyExists name => s!"capability already exists: {name}"
  | backend message => s!"capability store error: {message}"

def anonymous : StoreError → String
  | notFound _ => "capability not found"
  | alreadyExists _ => "capability already exists"
  | backend message => s!"capability store error: {message}"

end StoreError

structure KeyStore where
  keys : Catalog Key

namespace KeyStore

def empty : KeyStore := ⟨∅⟩

def insert (s : KeyStore) (i : Identity) (k : Key) : Except StoreError KeyStore :=
  if s.keys.contains i.name then .error (.alreadyExists i.name)
  else .ok ⟨s.keys.insert i.name k⟩

def mint (s : KeyStore) (i : Identity) (fresh : Key) : Except StoreError (Key × KeyStore) :=
  (s.insert i fresh).map fun s ↦ (fresh, s)

def revoke (s : KeyStore) (i : Identity) : Bool × KeyStore :=
  (s.keys.contains i.name, ⟨s.keys.erase i.name⟩)

def lookup (s : KeyStore) (i : Identity) : Except StoreError Key :=
  match s.keys.get? i.name with
  | some k => .ok k
  | none => .error (.notFound i.name)

def identities (s : KeyStore) : List Identity := s.keys.keys.map Identity.mk

end KeyStore

end Gatekeeper
