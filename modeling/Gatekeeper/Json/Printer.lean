import Gatekeeper.Decimal.Shortest
import Gatekeeper.Json.Value
import Gatekeeper.Text.Hex

namespace Gatekeeper.Json

/-- Doubles from `1e-5` up to below `1e16` are written positionally, the others with an exponent
that has a sign; a whole number keeps one zero after the point. -/
def doubleText (x : Double) : List Char :=
  let sign := if x.negative then ['-'] else []
  if x.isZero then sign ++ ['0', '.', '0']
  else
    let ⟨ds, p⟩ := Decimal.shortest x
    let n := ds.length
    let zeros (k : Int) := List.replicate k.toNat '0'
    let body :=
      if 0 < p ∧ p ≤ 16 then
        if n ≤ p.toNat then ds ++ zeros (p - n) ++ ['.', '0']
        else ds.take p.toNat ++ '.' :: ds.drop p.toNat
      else if -5 < p ∧ p ≤ 0 then ['0', '.'] ++ zeros (-p) ++ ds
      else
        let e := p - 1
        let fraction := if n = 1 then [] else '.' :: ds.drop 1
        ds.take 1 ++ fraction ++ 'e' :: (if e < 0 then '-' else '+') :: Nat.toDigits 10 e.natAbs
    sign ++ body

def integerText (n : Int) : List Char :=
  if n < 0 then '-' :: Nat.toDigits 10 n.natAbs else Nat.toDigits 10 n.natAbs

def escapeChar (c : Char) : List Char :=
  if c = '"' then ['\\', '"']
  else if c = '\\' then ['\\', '\\']
  else if c.toNat < 0x20 then
    match c.toNat with
    | 8 => ['\\', 'b']
    | 9 => ['\\', 't']
    | 10 => ['\\', 'n']
    | 12 => ['\\', 'f']
    | 13 => ['\\', 'r']
    | n => ['\\', 'u', '0', '0', Text.Hex.lowerDigit (n / 16), Text.Hex.lowerDigit (n % 16)]
  else [c]

def append (out : String) (cs : List Char) : String :=
  cs.foldl String.push out

def writeString (out : String) (s : String) : String :=
  (s.toList.foldl (fun out c ↦ append out (escapeChar c)) (out.push '"')).push '"'

mutual

def write (out : String) : Json → String
  | null => out ++ "null"
  | bool true => out ++ "true"
  | bool false => out ++ "false"
  | integer n => append out (integerText n)
  | double x => append out (doubleText x)
  | string s => writeString out s
  | array [] => out ++ "[]"
  | array (v :: vs) => (writeItems (write (out.push '[') v) vs).push ']'
  | object [] => (out.push '\x7b').push '\x7d'
  | object ((k, v) :: fs) =>
    (writeFields (write ((writeString (out.push '\x7b') k).push ':') v) fs).push '\x7d'

def writeItems (out : String) : List Json → String
  | [] => out
  | v :: vs => writeItems (write (out.push ',') v) vs

def writeFields (out : String) : List (String × Json) → String
  | [] => out
  | (k, v) :: fs => writeFields (write ((writeString (out.push ',') k).push ':') v) fs

end

def render (v : Json) : String := write "" v

def renderBytes (v : Json) : Bytes := Bytes.ofString v.render

def newline (out : String) (depth : Nat) : String :=
  append (out.push '\n') (List.replicate (2 * depth) ' ')

mutual

/-- Writes the laid out text of a value that stands `depth` brackets deep. -/
def writePretty (depth : Nat) (out : String) : Json → String
  | array (v :: vs) =>
    let first := writePretty (depth + 1) (newline (out.push '[') (depth + 1)) v
    (newline (writePrettyItems (depth + 1) first vs) depth).push ']'
  | object ((k, v) :: fs) =>
    let name := writeString (newline (out.push '\x7b') (depth + 1)) k ++ ": "
    (newline (writePrettyFields (depth + 1) (writePretty (depth + 1) name v) fs) depth).push '\x7d'
  | null => out ++ "null"
  | bool true => out ++ "true"
  | bool false => out ++ "false"
  | integer n => append out (integerText n)
  | double x => append out (doubleText x)
  | string s => writeString out s
  | array [] => out ++ "[]"
  | object [] => (out.push '\x7b').push '\x7d'

def writePrettyItems (depth : Nat) (out : String) : List Json → String
  | [] => out
  | v :: vs => writePrettyItems depth (writePretty depth (newline (out.push ',') depth) v) vs

def writePrettyFields (depth : Nat) (out : String) : List (String × Json) → String
  | [] => out
  | (k, v) :: fs =>
    let name := writeString (newline (out.push ',') depth) k ++ ": "
    writePrettyFields depth (writePretty depth name v) fs

end

def pretty (v : Json) : String := writePretty 0 "" v

end Gatekeeper.Json
