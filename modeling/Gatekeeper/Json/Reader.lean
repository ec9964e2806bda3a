import Gatekeeper.Json.Shape
import Gatekeeper.Json.Skip

namespace Gatekeeper.Json

def maxDepth : Nat := 127

def fits : Shape → Json → Bool
  | .any, _ => true
  | .text, .string _ => true
  | .flag, .bool _ => true
  | .natural, v => v.natural?.isSome
  | _, _ => false

/-- Goes to the next item or name behind a comma; the first stands behind the bracket. -/
def nextItem (first : Bool) (closing : Char) (cs : List Char) : Except Fault (Option (List Char)) :=
  match skipSpace cs with
  | [] => .error .cutShort
  | c :: rest =>
    if c = closing then .ok none
    else if first then .ok (some (c :: rest))
    else if c = ',' then
      match skipSpace rest with
      | [] => .error .cutShort
      | d :: more => if d = closing then .error .malformed else .ok (some (d :: more))
    else .error .malformed

def nextName (first : Bool) (cs : List Char) : Except Fault (Option (String × List Char)) :=
  match nextItem first '\x7d' cs with
  | .error e => .error e
  | .ok none => .ok none
  | .ok (some ('"' :: rest)) => (readString rest).map some
  | .ok (some _) => .error .malformed

def closeArray (cs : List Char) : Except Fault (List Char) :=
  match skipSpace cs with
  | [] => .error .cutShort
  | ']' :: rest => .ok rest
  | _ => .error .malformed

def afterClosing (cs : List Char) : List Char := (skipSpace cs).drop 1

def readChoiceObject (names : List String) (cs : List Char) : Read Json :=
  match skipSpace cs with
  | [] => .error .cutShort
  | '"' :: rest =>
    match readString rest with
    | .error e => .error e
    | .ok (name, rest) =>
      if names.contains name then
        match readColon rest with
        | .error e => .error e
        | .ok rest =>
          match skipSpace rest with
          | [] => .error .cutShort
          | c :: rest =>
            if c = '[' ∨ c = '\x7b' then .error .mismatch
            else
              match readScalar c rest with
              | .error e => .error e
              | .ok (.null, rest) =>
                match skipSpace rest with
                | [] => .error .cutShort
                | d :: rest => if d = '\x7d' then .ok (.string name, rest) else .error .malformed
              | .ok _ => .error .mismatch
      else .error .mismatch
  | _ => .error .malformed

mutual

/-- Reads a value of a shape where `depth` more brackets may be opened. A record may be written as
an object, whose unknown fields are passed over, or as an array of its fields in their order. The
first problem in the order of the text decides; fields that are missing are noticed where the object
closes. -/
def readShape : Nat → Nat → Shape → List Char → Read Json
  | 0, _, _, _ => .error .cutShort
  | fuel + 1, depth, shape, cs =>
    match skipSpace cs with
    | [] => .error .cutShort
    | c :: rest =>
      match shape with
      | .optional inner =>
        if c = 'n' then readScalar c rest else readShape fuel depth inner (c :: rest)
      | .choice names =>
        if c = '"' then
          match readString rest with
          | .error e => .error e
          | .ok (name, rest) =>
            if names.contains name then .ok (.string name, rest) else .error .mismatch
        else if c = '\x7b' then
          if depth = 0 then .error .malformed else readChoiceObject names rest
        else .error .malformed
      | _ =>
        if c = '[' then
          match shape with
          | .any =>
            if depth = 0 then .error .malformed else readItems fuel (depth - 1) .any true [] rest
          | .list inner =>
            if depth = 0 then .error .malformed else readItems fuel (depth - 1) inner true [] rest
          | .record fields =>
            if depth = 0 then .error .malformed else readSlots fuel (depth - 1) true [] fields rest
          | _ => .error .mismatch
        else if c = '\x7b' then
          match shape with
          | .any =>
            if depth = 0 then .error .malformed else readFields fuel (depth - 1) true [] rest
          | .table =>
            if depth = 0 then .error .malformed else readFields fuel (depth - 1) true [] rest
          | .record fields =>
            if depth = 0 then .error .malformed else readRecord fuel (depth - 1) true fields [] rest
          | _ => .error .mismatch
        else
          match readScalar c rest with
          | .error e => .error e
          | .ok (v, rest) => if fits shape v then .ok (v, rest) else .error .mismatch

def readItems : Nat → Nat → Shape → Bool → List Json → List Char → Read Json
  | 0, _, _, _, _, _ => .error .cutShort
  | fuel + 1, depth, shape, first, out, cs =>
    match nextItem first ']' cs with
    | .error e => .error e
    | .ok none => .ok (.array out.reverse, afterClosing cs)
    | .ok (some cs) =>
      match readShape fuel depth shape cs with
      | .error e => .error e
      | .ok (v, rest) => readItems fuel depth shape false (v :: out) rest

def readFields : Nat → Nat → Bool → List (String × Json) → List Char → Read Json
  | 0, _, _, _, _ => .error .cutShort
  | fuel + 1, depth, first, out, cs =>
    match nextName first cs with
    | .error e => .error e
    | .ok none => .ok (ofFields out.reverse, afterClosing cs)
    | .ok (some (name, rest)) =>
      match readColon rest with
      | .error e => .error e
      | .ok rest =>
        match readShape fuel depth .any rest with
        | .error e => .error e
        | .ok (v, rest) => readFields fuel depth false ((name, v) :: out) rest

def readRecord : Nat → Nat → Bool → List (Field × Shape) → List (String × Json) → List Char → Read Json
  | 0, _, _, _, _, _ => .error .cutShort
  | fuel + 1, depth, first, fields, out, cs =>
    match nextName first cs with
    | .error e => .error e
    | .ok none =>
      if Shape.complete fields (out.map Prod.fst) then .ok (.object out.reverse, afterClosing cs)
      else .error .mismatch
    | .ok (some (name, rest)) =>
      match Shape.find? fields name with
      | none =>
        match readColon rest with
        | .error e => .error e
        | .ok rest =>
          match skipValue rest with
          | .error e => .error e
          | .ok rest => readRecord fuel depth false fields out rest
      | some (field, shape) =>
        if (out.map Prod.fst).contains field.name then .error .mismatch
        else
          match readColon rest with
          | .error e => .error e
          | .ok rest =>
            match readShape fuel depth shape rest with
            | .error e => .error e
            | .ok (v, rest) => readRecord fuel depth false fields ((field.name, v) :: out) rest

def readSlots : Nat → Nat → Bool → List (String × Json) → List (Field × Shape) → List Char → Read Json
  | 0, _, _, _, _, _ => .error .cutShort
  | _ + 1, _, _, out, [], cs => (closeArray cs).map fun rest ↦ (.object out.reverse, rest)
  | fuel + 1, depth, first, out, (field, shape) :: fields, cs =>
    match nextItem first ']' cs with
    | .error e => .error e
    | .ok none =>
      if field.required then .error .mismatch else readSlots fuel depth first out fields cs
    | .ok (some cs) =>
      match readShape fuel depth shape cs with
      | .error e => .error e
      | .ok (v, rest) => readSlots fuel depth false ((field.name, v) :: out) fields rest

end

/-- Steps enough for any text: every step takes a character, a field left out or an option. -/
def stepsFor (cs : List Char) : Nat := 2 * cs.length + 16

def readAll (shape : Shape) (cs : List Char) : Except Fault Json :=
  match readShape (stepsFor cs) maxDepth shape cs with
  | .error e => .error e
  | .ok (v, rest) => if (skipSpace rest).isEmpty then .ok v else .error .malformed

def parse (s : String) : Except Fault Json := readAll .any s.toList

def parseBytes (bytes : Bytes) : Except Fault Json :=
  match bytes.toString? with
  | some s => parse s
  | none => .error .malformed

end Gatekeeper.Json
