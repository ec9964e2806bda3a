import Gatekeeper.Json.Value

namespace Gatekeeper

/-- A schema demands a kind of a value, and further schemas of those of its fields that are there.
-/
inductive Schema where
  | text
  | object (properties : List (String × Schema))

/-- A place in a schema whose type keyword the value at a place in a document does not meet. -/
structure Schema.Mismatch where
  schemaPath : List String
  instancePath : List String
deriving DecidableEq, Repr

structure Schema.Unusable where
  cause : String

def Schema.Unusable.message (u : Schema.Unusable) : String :=
  let cause := u.cause
  s!"invalid schema: {cause}"

def slashed (path : List String) : String :=
  path.foldl (fun out step ↦ out ++ "/" ++ step) ""

def Schema.Mismatch.message (v : Schema.Mismatch) : String :=
  let place := if v.instancePath.isEmpty then "/" else slashed v.instancePath
  s!"{slashed v.schemaPath} failed at {place}"

namespace Schema

mutual

def conforms : Schema → Json → Bool
  | text, v => v.string?.isSome
  | object properties, .object fields => conformsAll properties fields
  | object _, _ => false

def conformsAll : List (String × Schema) → List (String × Json) → Bool
  | [], _ => true
  | (name, s) :: rest, fields =>
    (match fields.lookup name with
      | some v => conforms s v
      | none => true) && conformsAll rest fields

end

mutual

/-- The first mismatch below a place in the schema and a place in the document: the outermost, then
the first in the order of the names. -/
def mismatchAt (schemaPath instancePath : List String) : Schema → Json → Option Mismatch
  | text, .string _ => none
  | text, _ => some ⟨schemaPath ++ ["type"], instancePath⟩
  | object properties, .object fields => mismatchIn schemaPath instancePath properties fields
  | object _, _ => some ⟨schemaPath ++ ["type"], instancePath⟩

def mismatchIn (schemaPath instancePath : List String) :
    List (String × Schema) → List (String × Json) → Option Mismatch
  | [], _ => none
  | (name, s) :: rest, fields =>
    (match fields.lookup name with
      | some v => mismatchAt (schemaPath ++ ["properties", name]) (instancePath ++ [name]) s v
      | none => none).or
      (mismatchIn schemaPath instancePath rest fields)

end

def mismatch? (s : Schema) (v : Json) : Option Mismatch := mismatchAt [] [] s v

def request : Schema :=
  object [("minted_identity", text),
    ("operation", object [("encrypted_message", text), ("encrypted_session_key", text),
      ("session_key_iv", text)])]

def operation : Schema :=
  object [("method_name", text), ("nonce", text), ("parameters", object [])]

end Schema

end Gatekeeper
