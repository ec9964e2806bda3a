import Gatekeeper.Text.Hex

namespace Gatekeeper.Net

inductive Host where
  | v4 (a b c d : Nat)
  | v6 (groups : List Nat) (scope : Nat)
deriving DecidableEq, Repr

structure SocketAddress where
  host : Host
  port : Nat
deriving DecidableEq, Repr

/-- Whether the host is the machine itself. An IPv4 address inside an IPv6 one does not count. -/
def Host.isLoopback : Host → Bool
  | .v4 a _ _ _ => a == 127
  | .v6 groups _ => groups == [0, 0, 0, 0, 0, 0, 0, 1]

def readChar (c : Char) : List Char → Option (List Char)
  | d :: cs => if d = c then some cs else none
  | [] => none

def isDigitOf (radix : Nat) (c : Char) : Bool :=
  match Text.Hex.digit? c with
  | some d => decide (d < radix)
  | none => false

def valueOf (radix : Nat) (digits : List Char) : Nat :=
  digits.foldl (fun n c ↦ radix * n + (Text.Hex.digit? c).getD 0) 0

def readNumber (radix greatest : Nat) (cs : List Char) : Option (Nat × List Char) :=
  let digits := cs.takeWhile (isDigitOf radix)
  if digits.isEmpty || greatest < valueOf radix digits then none
  else some (valueOf radix digits, cs.drop digits.length)

/-- Reads a number of one byte, without zeros in front. -/
def readOctet (cs : List Char) : Option (Nat × List Char) :=
  let digits := cs.takeWhile (isDigitOf 10)
  if 3 < digits.length || (digits.head? == some '0' && digits.length != 1) then none
  else readNumber 10 255 cs

def readGroup (cs : List Char) : Option (Nat × List Char) :=
  if 4 < (cs.takeWhile (isDigitOf 16)).length then none else readNumber 16 0xffff cs

def readV4 (cs : List Char) : Option ((Nat × Nat × Nat × Nat) × List Char) := do
  let (a, cs) ← readOctet cs
  let (b, cs) ← readOctet (← readChar '.' cs)
  let (c, cs) ← readOctet (← readChar '.' cs)
  let (d, cs) ← readOctet (← readChar '.' cs)
  some ((a, b, c, d), cs)

def skipColon (first : Bool) (cs : List Char) : Option (List Char) :=
  if first then some cs else readChar ':' cs

/-- Reads as many groups as there are, up to `slots`; an IPv4 address takes two slots and ends the
reading. Also answers whether it ended so. -/
def readGroups : (slots : Nat) → (first : Bool) → List Char → List Nat × Bool × List Char
  | 0, _, cs => ([], false, cs)
  | n + 1, first, cs =>
    match if n = 0 then none else (skipColon first cs).bind readV4 with
    | some ((a, b, c, d), cs) => ([256 * a + b, 256 * c + d], true, cs)
    | none =>
      match (skipColon first cs).bind readGroup with
      | some (g, cs) =>
        let (gs, ended, cs) := readGroups n false cs
        (g :: gs, ended, cs)
      | none => ([], false, cs)

/-- Reads eight groups, of which a double colon may stand for one or more that are zero. -/
def readV6 (cs : List Char) : Option (List Nat × List Char) :=
  match readGroups 8 true cs with
  | (head, ended, cs) =>
    if head.length = 8 then some (head, cs)
    else if ended then none
    else do
      let cs ← readChar ':' (← readChar ':' cs)
      match readGroups (7 - head.length) true cs with
      | (tail, _, cs) =>
        some (head ++ List.replicate (8 - head.length - tail.length) 0 ++ tail, cs)

def readScope (cs : List Char) : Nat × List Char :=
  match (readChar '%' cs).bind (readNumber 10 0xffffffff) with
  | some (n, cs) => (n, cs)
  | none => (0, cs)

def readHost (cs : List Char) : Option (Host × List Char) :=
  match readV4 cs with
  | some ((a, b, c, d), cs) => some (.v4 a b c d, cs)
  | none => do
    let (groups, cs) ← readV6 (← readChar '[' cs)
    let (scope, cs) := readScope cs
    some (.v6 groups scope, ← readChar ']' cs)

namespace SocketAddress

def parse? (s : String) : Option SocketAddress := do
  let (host, cs) ← readHost s.toList
  let (port, cs) ← readNumber 10 0xffff (← readChar ':' cs)
  if cs.isEmpty then some { host, port } else none

end SocketAddress

def zeros (groups : List Nat) : Nat := (groups.takeWhile (· == 0)).length

/-- Where the longest run of zeros begins, and its length; of equals the first. -/
def longestZeros : List Nat → Nat × Nat
  | [] => (0, 0)
  | g :: gs =>
    match longestZeros gs with
    | (start, length) => if length ≤ zeros (g :: gs) then (0, zeros (g :: gs)) else (start + 1, length)

def hexText (n : Nat) : String := String.ofList (Nat.toDigits 16 n)

def joinGroups (groups : List Nat) : String := ":".intercalate (groups.map hexText)

/-- The longest run of zeros is left out, the first of equals. -/
def groupsText (groups : List Nat) : String :=
  match groups with
  | [0, 0, 0, 0, 0, 0xffff, g, h] => s!"::ffff:{g / 256}.{g % 256}.{h / 256}.{h % 256}"
  | _ =>
    match longestZeros groups with
    | (start, length) =>
      if length < 2 then joinGroups groups
      else joinGroups (groups.take start) ++ "::" ++ joinGroups (groups.drop (start + length))

def Host.text : Host → String
  | .v4 a b c d => s!"{a}.{b}.{c}.{d}"
  | .v6 groups scope => "[" ++ groupsText groups ++ (if scope = 0 then "]" else s!"%{scope}]")

def SocketAddress.text (a : SocketAddress) : String := a.host.text ++ s!":{a.port}"

end Gatekeeper.Net
