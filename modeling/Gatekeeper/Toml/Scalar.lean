import Gatekeeper.Text.Hex
import Gatekeeper.Toml.Value

namespace Gatekeeper.Toml

/-- The range of integers that a document may hold at all. -/
def leastInteger : Int := -170141183460469231731687303715884105728

def greatestInteger : Int := 340282366920938463463374607431768211455

/-- Drops the underscores between digits; one that has no digit on both sides is an error. -/
def joinDigits (isDigit : Char → Bool) : List Char → Option (List Char)
  | [] => none
  | c :: cs => if isDigit c then go [c] cs else none
where
  go (out : List Char) : List Char → Option (List Char)
    | [] => some out.reverse
    | '_' :: d :: cs => if isDigit d then go (d :: out) cs else none
    | d :: cs => if isDigit d then go (d :: out) cs else none

def ofDigits (base : Nat) (ds : List Char) : Nat :=
  ds.foldl (fun n c ↦ base * n + (Text.Hex.digit? c).getD 0) 0

/-- The natural number of decimal digits without a needless zero in front. -/
def decimal? (cs : List Char) : Option Nat :=
  (joinDigits isDigit cs).bind fun ds ↦
    match ds with
    | '0' :: _ :: _ => none
    | _ => some (ofDigits 10 ds)

def signed (cs : List Char) : Bool × List Char :=
  match cs with
  | '-' :: rest => (true, rest)
  | '+' :: rest => (false, rest)
  | _ => (false, cs)

def inBase (base : Nat) (isDigit : Char → Bool) (cs : List Char) : Option Int :=
  (joinDigits isDigit cs).map fun ds ↦ (ofDigits base ds : Int)

def integer? (cs : List Char) : Option Int :=
  match cs with
  | '0' :: 'x' :: rest => inBase 16 (fun c ↦ (Text.Hex.digit? c).isSome) rest
  | '0' :: 'o' :: rest => inBase 8 (fun c ↦ '0' ≤ c && c ≤ '7') rest
  | '0' :: 'b' :: rest => inBase 2 (fun c ↦ c == '0' || c == '1') rest
  | _ =>
    let (negative, rest) := signed cs
    (decimal? rest).map fun n ↦ if negative then -(n : Int) else n

def exponent? (cs : List Char) : Option Int :=
  let (negative, rest) := signed cs
  (joinDigits isDigit rest).map fun ds ↦
    let n : Int := ofDigits 10 ds
    if negative then -n else n

/-- The double of the parts of a float: an integer part, perhaps a fraction, perhaps an exponent. -/
def double? (cs : List Char) : Option (Option Double) :=
  let (negative, rest) := signed cs
  let whole := rest.takeWhile fun c ↦ isDigit c || c == '_'
  let behind := rest.drop whole.length
  let ofParts (fraction : List Char) (e : Int) : Option (Option Double) :=
    (decimal? whole).bind fun n ↦
      let digits := fraction.foldl (fun n c ↦ 10 * n + digitValue c) n
      (Double.ofDecimal negative digits (e - fraction.length)).map some
  match behind with
  | '.' :: rest =>
    let fraction := rest.takeWhile fun c ↦ isDigit c || c == '_'
    (joinDigits isDigit fraction).bind fun ds ↦
      match rest.drop fraction.length with
      | [] => ofParts ds 0
      | 'e' :: rest => (exponent? rest).bind (ofParts ds)
      | 'E' :: rest => (exponent? rest).bind (ofParts ds)
      | _ => none
  | 'e' :: rest => (exponent? rest).bind (ofParts [])
  | 'E' :: rest => (exponent? rest).bind (ofParts [])
  | _ => none

def float? (cs : List Char) : Option (Option Double) :=
  if (signed cs).2 = ['i', 'n', 'f'] ∨ (signed cs).2 = ['n', 'a', 'n'] then some none else double? cs

def readField (digits greatest : Nat) (cs : List Char) : Read (List Char) :=
  let field := cs.take digits
  if field.length = digits ∧ field.all isDigit ∧ ofDigits 10 field ≤ greatest then
    some (field, cs.drop digits)
  else none

def daysIn (year month : Nat) : Nat :=
  if month = 2 then if year % 4 = 0 ∧ (year % 100 ≠ 0 ∨ year % 400 = 0) then 29 else 28
  else if month ∈ [4, 6, 9, 11] then 30
  else 31

def readDate (cs : List Char) : Option (List Char × List Char) := do
  let (year, cs) ← readField 4 9999 cs
  let '-' :: cs := cs | none
  let (month, cs) ← readField 2 12 cs
  let '-' :: cs := cs | none
  let (day, cs) ← readField 2 31 cs
  let m := ofDigits 10 month
  let d := ofDigits 10 day
  if 1 ≤ m ∧ 1 ≤ d ∧ d ≤ daysIn (ofDigits 10 year) m then
    some (year ++ '-' :: month ++ '-' :: day, cs)
  else none

/-- Reads the seconds of a time and their fraction, of which nine digits and no zeros at the end are
kept. A time without seconds has none. -/
def readSeconds (cs : List Char) : Read (List Char) :=
  match cs with
  | ':' :: rest =>
    (readField 2 60 rest).bind fun (seconds, rest) ↦
      match rest with
      | '.' :: more =>
        let digits := more.takeWhile isDigit
        let kept := ((digits.take 9).reverse.dropWhile (· == '0')).reverse
        if digits.isEmpty then none
        else some (seconds ++ if kept.isEmpty then [] else '.' :: kept, more.drop digits.length)
      | _ => some (seconds, rest)
  | _ => some (['0', '0'], cs)

def readTime (cs : List Char) : Option (List Char × List Char) := do
  let (hour, cs) ← readField 2 23 cs
  let ':' :: cs := cs | none
  let (minute, cs) ← readField 2 59 cs
  let (seconds, cs) ← readSeconds cs
  some (hour ++ ':' :: minute ++ ':' :: seconds, cs)

def offset? (cs : List Char) : Option (List Char) :=
  match cs with
  | [] => some []
  | ['Z'] => some ['Z']
  | ['z'] => some ['Z']
  | sign :: cs => do
    let (hour, cs) ← readField 2 23 cs
    let ':' :: cs := cs | none
    let (minute, cs) ← readField 2 59 cs
    let zero := hour = ['0', '0'] ∧ minute = ['0', '0']
    if cs.isEmpty ∧ (sign = '+' ∨ sign = '-') then
      some ((if zero then '+' else sign) :: hour ++ ':' :: minute)
    else none

/-- The canonical text of a date, a time, or a date and a time with perhaps an offset. -/
def datetime? (cs : List Char) : Option String :=
  match readDate cs with
  | some (date, []) => some (String.ofList date)
  | some (date, separator :: rest) =>
    if separator = 'T' ∨ separator = 't' ∨ separator = ' ' then do
      let (time, rest) ← readTime rest
      let offset ← offset? rest
      some (String.ofList (date ++ 'T' :: time ++ offset))
    else none
  | none =>
    match readTime cs with
    | some (time, []) => some (String.ofList time)
    | _ => none

def scalar? (cs : List Char) : Option Toml :=
  if cs = ['t', 'r', 'u', 'e'] then some (.boolean true)
  else if cs = ['f', 'a', 'l', 's', 'e'] then some (.boolean false)
  else
    match integer? cs with
    | some n => if leastInteger ≤ n ∧ n ≤ greatestInteger then some (.integer n) else none
    | none =>
      match float? cs with
      | some x => some (.float x)
      | none => (datetime? cs).map .datetime

def isDelimiter (c : Char) : Bool :=
  c ∈ ['=', ',', '[', ']', '\x7b', '\x7d', ' ', '\t', '#', '\r', '\n']

/-- Reads an unquoted scalar. A date and a time may have one blank between them. -/
def readScalar (cs : List Char) : Read Toml :=
  let word := cs.takeWhile (!isDelimiter ·)
  let rest := cs.drop word.length
  match readDate word, rest with
  | some (_, []), ' ' :: c :: more =>
    if isDigit c then
      let time := (c :: more).takeWhile (!isDelimiter ·)
      (scalar? (word ++ ' ' :: time)).map (·, (c :: more).drop time.length)
    else (scalar? word).map (·, rest)
  | _, _ => (scalar? word).map (·, rest)

end Gatekeeper.Toml
