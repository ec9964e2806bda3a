import Gatekeeper.Json.Fault
import Gatekeeper.Json.Value
import Gatekeeper.Text.Hex

namespace Gatekeeper.Json

abbrev Read (α : Type) := Except Fault (α × List Char)

def isSpace (c : Char) : Bool := c == ' ' || c == '\t' || c == '\n' || c == '\r'

def skipSpace (cs : List Char) : List Char := cs.dropWhile isSpace

def isDigit (c : Char) : Bool := '0' ≤ c && c ≤ '9'

def digitValue (c : Char) : Nat := c.toNat - 48

def readWord (v : Json) : List Char → List Char → Read Json
  | [], cs => .ok (v, cs)
  | _ :: _, [] => .error .cutShort
  | w :: ws, c :: cs => if c = w then readWord v ws cs else .error .malformed

/-- Reads four hexadecimal digits. Fewer than four bytes before the end of the text are a text cut
short, whatever they are. -/
def readUnit (cs : List Char) : Read Nat :=
  match cs with
  | a :: b :: c :: d :: rest =>
    match Text.Hex.number? [a, b, c, d] with
    | some n => .ok (n, rest)
    | none => .error .malformed
  | short => if 4 ≤ (String.ofList short).utf8ByteSize then .error .malformed else .error .cutShort

def readLowSurrogate (high : Nat) : List Char → Read Char
  | [] => .error .cutShort
  | '\\' :: [] => .error .cutShort
  | '\\' :: 'u' :: cs =>
    match readUnit cs with
    | .error e => .error e
    | .ok (low, rest) =>
      if 0xdc00 ≤ low ∧ low ≤ 0xdfff then
        .ok (Char.ofNat ((high - 0xd800) * 1024 + (low - 0xdc00) + 0x10000), rest)
      else .error .malformed
  | _ => .error .malformed

def readEscape : List Char → Read Char
  | [] => .error .cutShort
  | 'u' :: cs =>
    match readUnit cs with
    | .error e => .error e
    | .ok (n, rest) =>
      if n < 0xd800 ∨ 0xdfff < n then .ok (Char.ofNat n, rest)
      else if 0xdc00 ≤ n then .error .malformed
      else readLowSurrogate n rest
  | '"' :: cs => .ok ('"', cs)
  | '\\' :: cs => .ok ('\\', cs)
  | '/' :: cs => .ok ('/', cs)
  | 'b' :: cs => .ok ('\x08', cs)
  | 'f' :: cs => .ok ('\x0c', cs)
  | 'n' :: cs => .ok ('\n', cs)
  | 'r' :: cs => .ok ('\r', cs)
  | 't' :: cs => .ok ('\t', cs)
  | _ => .error .malformed

/-- Reads a string from behind its opening quote, in at most `fuel` steps; `out` holds its
characters so far, in reverse. -/
def readStringOnto : Nat → List Char → List Char → Read String
  | 0, _, _ => .error .cutShort
  | _, _, [] => .error .cutShort
  | fuel + 1, out, c :: cs =>
    if c = '"' then .ok (String.ofList out.reverse, cs)
    else if c = '\\' then
      match readEscape cs with
      | .error e => .error e
      | .ok (d, rest) => readStringOnto fuel (d :: out) rest
    else if c.toNat < 0x20 then .error .malformed
    else readStringOnto fuel (c :: out) cs

def readString (cs : List Char) : Read String := readStringOnto (cs.length + 1) [] cs

def significandLimit : Nat := 18446744073709551615

/-- The greatest exponent that is read digit by digit. -/
def exponentLimit : Nat := 2147483647

def powerOfTen (n : Nat) : Option Double := Double.ofNat (Nat.pow 10 n)

/-- The quotient by `1e308`, exponent by exponent, until the rest is at most `308`. -/
def descend : Nat → Double → Nat → Option Double
  | 0, x, _ => some x
  | fuel + 1, x, e =>
    if x.isZero then some x
    else if e ≤ 308 then (powerOfTen e).bind x.div
    else ((powerOfTen 308).bind x.div).bind fun y ↦ descend fuel y (e - 308)

/-- The double of a significand and a decimal exponent: one multiplication or division by a power
of ten, rounded, after as many divisions by `1e308` as bring the exponent into range. -/
def ofParts (negative : Bool) (significand : Nat) (e : Int) : Except Fault Json :=
  let x? := (Double.ofNat significand).bind fun x ↦
    if e < 0 then descend (e.natAbs + 1) x e.natAbs
    else if e ≤ 308 then (powerOfTen e.toNat).bind x.mul
    else if x.isZero then some x
    else none
  match x? with
  | some x => .ok (.double { x with negative })
  | none => .error .malformed

/-- Reads the digits of an exponent. Beyond `exponentLimit` a number has no double unless it is
zero or the exponent is negative, and then it is zero. -/
def readExponentDigits (negative : Bool) (significand : Nat) (start : Int) (down : Bool) :
    Nat → List Char → Read Json
  | e, cs =>
    match cs with
    | c :: rest =>
      if isDigit c then
        let e' := e * 10 + digitValue c
        if exponentLimit < e' then
          if significand ≠ 0 ∧ !down then .error .malformed
          else .ok (.double { Double.zero with negative }, rest.dropWhile isDigit)
        else readExponentDigits negative significand start down e' rest
      else finish e cs
    | [] => finish e []
where
  finish (e : Nat) (rest : List Char) : Read Json :=
    (ofParts negative significand (if down then start - e else start + e)).map (·, rest)

def readExponent (negative : Bool) (significand : Nat) (start : Int) (cs : List Char) : Read Json :=
  let (down, cs) :=
    match cs with
    | '+' :: rest => (false, rest)
    | '-' :: rest => (true, rest)
    | _ => (false, cs)
  match cs with
  | [] => .error .cutShort
  | c :: rest =>
    if isDigit c then readExponentDigits negative significand start down (digitValue c) rest
    else .error .malformed

def readOptionalExponent (negative : Bool) (significand : Nat) (e : Int) (cs : List Char) : Read Json :=
  match cs with
  | 'e' :: rest => readExponent negative significand e rest
  | 'E' :: rest => readExponent negative significand e rest
  | _ => (ofParts negative significand e).map (·, cs)

/-- Reads the digits behind the point, of which `count` were read; those that no longer fit the
significand are dropped. -/
def readFraction (negative : Bool) (e : Int) : Nat → Nat → List Char → Read Json
  | count, significand, cs =>
    match cs with
    | c :: rest =>
      if isDigit c then
        let n := significand * 10 + digitValue c
        if significandLimit < n then
          readOptionalExponent negative significand (e - count) (rest.dropWhile isDigit)
        else readFraction negative e (count + 1) n rest
      else if count = 0 then .error .malformed
      else readOptionalExponent negative significand (e - count) cs
    | [] =>
      if count = 0 then .error .cutShort
      else readOptionalExponent negative significand (e - count) []

/-- Reads the digits of an integer that no longer fit the significand: each raises the exponent. -/
def readLongInteger (negative : Bool) (significand : Nat) : Nat → List Char → Read Json
  | e, cs =>
    match cs with
    | c :: rest =>
      if isDigit c then readLongInteger negative significand (e + 1) rest
      else if c = '.' then readFraction negative e 0 significand rest
      else readOptionalExponent negative significand e cs
    | [] => readOptionalExponent negative significand e []

/-- The number whose digits before the point are read. A negative number below the integers, and
the negative zero, is a double. -/
def endInteger (negative : Bool) (significand : Nat) (cs : List Char) : Read Json :=
  match cs with
  | '.' :: rest => readFraction negative 0 0 significand rest
  | 'e' :: rest => readExponent negative significand 0 rest
  | 'E' :: rest => readExponent negative significand 0 rest
  | _ =>
    if !negative then .ok (.integer significand, cs)
    else if significand = 0 ∨ 9223372036854775808 < significand then
      (ofParts true significand 0).map (·, cs)
    else .ok (.integer (-significand), cs)

def readInteger (negative : Bool) : Nat → List Char → Read Json
  | significand, cs =>
    match cs with
    | c :: rest =>
      if isDigit c then
        let n := significand * 10 + digitValue c
        if significandLimit < n then readLongInteger negative significand 1 rest
        else readInteger negative n rest
      else endInteger negative significand cs
    | [] => endInteger negative significand []

def readNumber (negative : Bool) : List Char → Read Json
  | [] => .error .cutShort
  | '0' :: cs =>
    match cs with
    | c :: _ => if isDigit c then .error .malformed else endInteger negative 0 cs
    | [] => endInteger negative 0 []
  | c :: cs => if isDigit c then readInteger negative (digitValue c) cs else .error .malformed

def readScalar (c : Char) (cs : List Char) : Read Json :=
  if c = '"' then (readString cs).map fun (s, rest) ↦ (.string s, rest)
  else if c = 'n' then readWord .null ['u', 'l', 'l'] cs
  else if c = 't' then readWord (.bool true) ['r', 'u', 'e'] cs
  else if c = 'f' then readWord (.bool false) ['a', 'l', 's', 'e'] cs
  else if c = '-' then readNumber true cs
  else if isDigit c then readNumber false (c :: cs)
  else .error .malformed

end Gatekeeper.Json
