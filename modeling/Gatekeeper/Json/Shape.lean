namespace Gatekeeper

/-- A field of a record: its name, the other names it goes by, and whether it may be left out. -/
structure Field where
  name : String
  aliases : List String := []
  required : Bool := false

def Field.answersTo (f : Field) (name : String) : Bool :=
  f.name == name || f.aliases.contains name

inductive Shape where
  | any
  | text
  | flag
  | natural
  | choice (names : List String)
  | optional (inner : Shape)
  | list (inner : Shape)
  | table
  | record (fields : List (Field × Shape))

namespace Shape

def find? (fields : List (Field × Shape)) (name : String) : Option (Field × Shape) :=
  fields.find? fun f ↦ f.1.answersTo name

def complete (fields : List (Field × Shape)) (given : List String) : Bool :=
  fields.all fun f ↦ !f.1.required || given.contains f.1.name

end Shape

end Gatekeeper
