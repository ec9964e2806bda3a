import Gatekeeper.Json.Shape
import Gatekeeper.Json.Value
import Gatekeeper.Toml.Value

namespace Gatekeeper.Toml

/-- The name under which a date or time stands in free-form settings. -/
def datetimeField : String := "$__toml_private_datetime"

mutual

def toJson? : Toml → Option Json
  | .string s => some (.string s)
  | .integer n => if Json.leastInteger ≤ n ∧ n ≤ Json.greatestInteger then some (.integer n) else none
  | .float (some x) => some (.double x)
  | .float none => some .null
  | .boolean b => some (.bool b)
  | .datetime text => some (.object [(datetimeField, .string text)])
  | .array items => (itemsToJson? items).map .array
  | .table fields => (fieldsToJson? fields).map .ofFields

def itemsToJson? : List Toml → Option (List Json)
  | [] => some []
  | v :: vs =>
    match toJson? v, itemsToJson? vs with
    | some w, some ws => some (w :: ws)
    | _, _ => none

def fieldsToJson? : List (String × Toml) → Option (List (String × Json))
  | [] => some []
  | (name, v) :: fs =>
    match toJson? v, fieldsToJson? fs with
    | some w, some ws => some ((name, w) :: ws)
    | _, _ => none

end

def isUnit : Toml → Bool
  | .array [] => true
  | .table [] => true
  | _ => false

mutual

/-- The value of a shape, if it has that shape. Free-form tables become JSON: an infinite float is
null, and a date or time an object of its own. -/
def ofShape? : Shape → Toml → Option Json
  | .any, v => toJson? v
  | .text, .string s => some (.string s)
  | .flag, .boolean b => some (.bool b)
  | .natural, .integer n => if 0 ≤ n ∧ n ≤ Json.greatestInteger then some (.integer n) else none
  | .choice names, .string s => if names.contains s then some (.string s) else none
  | .choice names, .table [(name, v)] =>
    if names.contains name && isUnit v then some (.string name) else none
  | .optional inner, v => ofShape? inner v
  | .list inner, .array items => (items.mapM (ofShape? inner)).map .array
  | .table, .table fields => toJson? (.table fields)
  | .table, .datetime text => toJson? (.datetime text)
  | .record fields, .table given => (fieldsOf? fields given).map .object
  | .record fields, .datetime _ => (fieldsOf? fields []).map .object
  | .record fields, .array given => (slotsOf? fields given).map .object
  | _, _ => none

/-- The fields of a record that a table gives; a field must not be given under two of its names. -/
def fieldsOf? : List (Field × Shape) → List (String × Toml) → Option (List (String × Json))
  | [], _ => some []
  | (field, shape) :: fields, given =>
    match given.filter fun g ↦ field.answersTo g.1, fieldsOf? fields given with
    | [], some rest => if field.required then none else some rest
    | [(_, v)], some rest => (ofShape? shape v).map fun w ↦ (field.name, w) :: rest
    | _, _ => none

def slotsOf? : List (Field × Shape) → List Toml → Option (List (String × Json))
  | [], _ => some []
  | (field, _) :: fields, [] => if field.required then none else slotsOf? fields []
  | (field, shape) :: fields, v :: vs =>
    match ofShape? shape v, slotsOf? fields vs with
    | some w, some rest => some ((field.name, w) :: rest)
    | _, _ => none

end

end Gatekeeper.Toml
