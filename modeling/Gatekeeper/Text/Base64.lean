import Gatekeeper.Text.Bytes

namespace Gatekeeper.Text.Base64

def symbol (n : Nat) : Char :=
  if n < 26 then Char.ofNat (65 + n)
  else if n < 52 then Char.ofNat (71 + n)
  else if n < 62 then Char.ofNat (n - 4)
  else if n = 62 then '+'
  else '/'

def value? (c : Char) : Option Nat :=
  if 'A' ≤ c ∧ c ≤ 'Z' then some (c.toNat - 65)
  else if 'a' ≤ c ∧ c ≤ 'z' then some (c.toNat - 71)
  else if '0' ≤ c ∧ c ≤ '9' then some (c.toNat + 4)
  else if c = '+' then some 62
  else if c = '/' then some 63
  else none

def encodeOnto (out : List Char) : Bytes → List Char
  | [] => out
  | [a] => '=' :: '=' :: symbol (a.toNat % 4 * 16) :: symbol (a.toNat / 4) :: out
  | [a, b] =>
    '=' :: symbol (b.toNat % 16 * 4) :: symbol (a.toNat % 4 * 16 + b.toNat / 16) ::
      symbol (a.toNat / 4) :: out
  | a :: b :: c :: rest =>
    encodeOnto (symbol (c.toNat % 64) :: symbol (b.toNat % 16 * 4 + c.toNat / 64) ::
      symbol (a.toNat % 4 * 16 + b.toNat / 16) :: symbol (a.toNat / 4) :: out) rest

def encode (bytes : Bytes) : String :=
  String.ofList (encodeOnto [] bytes).reverse

/-- The bytes of a last group that ends in `=`, in reverse. -/
def decodeTail (a b c : Char) : Option Bytes :=
  match value? a, value? b, value? c with
  | some x, some y, some z =>
    if z % 4 = 0 then some [UInt8.ofNat (y % 16 * 16 + z / 4), UInt8.ofNat (x * 4 + y / 16)] else none
  | some x, some y, none =>
    if c = '=' ∧ y % 16 = 0 then some [UInt8.ofNat (x * 4 + y / 16)] else none
  | _, _, _ => none

def decodeGroup (a b c d : Char) : Option Bytes :=
  match value? a, value? b, value? c, value? d with
  | some x, some y, some z, some w =>
    some [UInt8.ofNat (z % 4 * 64 + w), UInt8.ofNat (y % 16 * 16 + z / 4), UInt8.ofNat (x * 4 + y / 16)]
  | _, _, _, _ => none

def decodeOnto (out : Bytes) : List Char → Option Bytes
  | [] => some out
  | [a, b, c, d] =>
    (if d = '=' then decodeTail a b c else decodeGroup a b c d).map (· ++ out)
  | a :: b :: c :: d :: rest =>
    match decodeGroup a b c d with
    | some group => decodeOnto (group ++ out) rest
    | none => none
  | _ => none

/-- Reads what writing produces and nothing else: no blanks, no missing padding, no bits left over
in the last symbol. -/
def decode? (s : String) : Option Bytes :=
  (decodeOnto [] s.toList).map List.reverse

end Gatekeeper.Text.Base64
