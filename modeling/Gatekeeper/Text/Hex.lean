import Gatekeeper.Text.Bytes

namespace Gatekeeper.Text.Hex

def lowerDigit (n : Nat) : Char :=
  if n < 10 then Char.ofNat (48 + n) else Char.ofNat (87 + n)

def upperDigit (n : Nat) : Char :=
  if n < 10 then Char.ofNat (48 + n) else Char.ofNat (55 + n)

def encode (bytes : Bytes) : String :=
  String.ofList (bytes.flatMap fun b ↦ [lowerDigit (b.toNat / 16), lowerDigit (b.toNat % 16)])

def encodeUpper (bytes : Bytes) : String :=
  String.ofList (bytes.flatMap fun b ↦ [upperDigit (b.toNat / 16), upperDigit (b.toNat % 16)])

def digit? (c : Char) : Option Nat :=
  if '0' ≤ c ∧ c ≤ '9' then some (c.toNat - 48)
  else if 'a' ≤ c ∧ c ≤ 'f' then some (c.toNat - 87)
  else if 'A' ≤ c ∧ c ≤ 'F' then some (c.toNat - 55)
  else none

def number? (digits : List Char) : Option Nat :=
  digits.foldl (fun n? c ↦ n?.bind fun n ↦ (digit? c).map (16 * n + ·)) (some 0)

end Gatekeeper.Text.Hex
