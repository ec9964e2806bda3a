import Gatekeeper.Catalog
import Gatekeeper.Decimal.Double

namespace Gatekeeper

/-- A number with a fraction or an exponent, or out of the range of integers, is a double. An object
holds its fields in the order in which they are written, which for an object that was read is the
order of their names. -/
inductive Json where
  | null
  | bool (b : Bool)
  | integer (n : Int)
  | double (x : Double)
  | string (s : String)
  | array (items : List Json)
  | object (fields : List (String × Json))
deriving Inhabited

namespace Json

def leastInteger : Int := -9223372036854775808

def greatestInteger : Int := 18446744073709551615

def isNull : Json → Bool
  | null => true
  | _ => false

def string? : Json → Option String
  | string s => some s
  | _ => none

def object? : Json → Option (List (String × Json))
  | object fields => some fields
  | _ => none

def array? : Json → Option (List Json)
  | array items => some items
  | _ => none

def bool? : Json → Option Bool
  | bool b => some b
  | _ => none

def natural? : Json → Option Nat
  | integer n => if 0 ≤ n ∧ n ≤ greatestInteger then some n.toNat else none
  | _ => none

def field? (v : Json) (name : String) : Option Json :=
  v.object?.bind fun fields ↦ fields.lookup name

/-- Keeps of neighbours with one name the last. -/
def keepLast : List (String × Json) → List (String × Json) → List (String × Json)
  | out, [] => out.reverse
  | out, [e] => (e :: out).reverse
  | out, e :: d :: es => if e.1 = d.1 then keepLast out (d :: es) else keepLast (e :: out) (d :: es)

/-- An object of fields in any order: they are sorted by name, and of two with one name the later
one stays. -/
def ofFields (fields : List (String × Json)) : Json :=
  object (keepLast [] (fields.mergeSort fun a b ↦ decide (a.1 ≤ b.1)))

def ofPresent (fields : List (String × Option Json)) : Json :=
  object (fields.filterMap fun (name, value?) ↦ value?.map fun v ↦ (name, v))

def ofOption (f : α → Json) : Option α → Json
  | some a => f a
  | none => null

end Json

end Gatekeeper
