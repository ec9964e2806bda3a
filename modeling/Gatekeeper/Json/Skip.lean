import Gatekeeper.Json.Scalar

namespace Gatekeeper.Json

inductive Bracket where
  | square
  | curly
deriving DecidableEq

def Bracket.closing : Bracket → Char
  | .square => ']'
  | .curly => '\x7d'

/-- What has to come next: a value, the first item or the end of an open bracket, or what follows
a finished value. -/
inductive Awaited where
  | value
  | first
  | next

def skipEscape : List Char → Except Fault (List Char)
  | [] => .error .cutShort
  | 'u' :: cs => (readUnit cs).map Prod.snd
  | c :: cs => if c ∈ ['"', '\\', '/', 'b', 'f', 'n', 'r', 't'] then .ok cs else .error .malformed

def skipStringWithin : Nat → List Char → Except Fault (List Char)
  | 0, _ => .error .cutShort
  | _, [] => .error .cutShort
  | fuel + 1, c :: cs =>
    if c = '"' then .ok cs
    else if c = '\\' then
      match skipEscape cs with
      | .error e => .error e
      | .ok rest => skipStringWithin fuel rest
    else if c.toNat < 0x20 then .error .malformed
    else skipStringWithin fuel cs

def skipString (cs : List Char) : Except Fault (List Char) := skipStringWithin (cs.length + 1) cs

def skipDigits : List Char → Except Fault (List Char)
  | [] => .error .malformed
  | c :: cs => if isDigit c then .ok (cs.dropWhile isDigit) else .error .malformed

def skipExponent (cs : List Char) : Except Fault (List Char) :=
  match cs with
  | '+' :: rest => skipDigits rest
  | '-' :: rest => skipDigits rest
  | _ => skipDigits cs

def skipOptionalExponent (cs : List Char) : Except Fault (List Char) :=
  match cs with
  | 'e' :: rest => skipExponent rest
  | 'E' :: rest => skipExponent rest
  | _ => .ok cs

def skipFraction (cs : List Char) : Except Fault (List Char) :=
  match cs with
  | '.' :: rest =>
    match skipDigits rest with
    | .error e => .error e
    | .ok rest => skipOptionalExponent rest
  | _ => skipOptionalExponent cs

def skipNumber : List Char → Except Fault (List Char)
  | '0' :: cs =>
    match cs with
    | c :: _ => if isDigit c then .error .malformed else skipFraction cs
    | [] => .ok []
  | cs =>
    match skipDigits cs with
    | .error e => .error e
    | .ok rest => skipFraction rest

def skipScalar (c : Char) (cs : List Char) : Except Fault (List Char) :=
  if c = '"' then skipString cs
  else if c = 'n' then (readWord .null ['u', 'l', 'l'] cs).map Prod.snd
  else if c = 't' then (readWord .null ['r', 'u', 'e'] cs).map Prod.snd
  else if c = 'f' then (readWord .null ['a', 'l', 's', 'e'] cs).map Prod.snd
  else if c = '-' then skipNumber cs
  else if isDigit c then skipNumber (c :: cs)
  else .error .malformed

def readColon (cs : List Char) : Except Fault (List Char) :=
  match skipSpace cs with
  | [] => .error .cutShort
  | ':' :: rest => .ok rest
  | _ => .error .malformed

def skipName (b : Bracket) (cs : List Char) : Except Fault (List Char) :=
  match b with
  | .square => .ok cs
  | .curly =>
    match skipSpace cs with
    | [] => .error .cutShort
    | '"' :: rest =>
      match skipString rest with
      | .error e => .error e
      | .ok rest => readColon rest
    | _ => .error .malformed

def skipWithin : Nat → Awaited → List Bracket → List Char → Except Fault (List Char)
  | 0, _, _, _ => .error .cutShort
  | fuel + 1, .value, opened, cs =>
    match skipSpace cs with
    | [] => .error .cutShort
    | '[' :: rest => skipWithin fuel .first (.square :: opened) rest
    | c :: rest =>
      if c = '\x7b' then skipWithin fuel .first (.curly :: opened) rest
      else
        match skipScalar c rest with
        | .error e => .error e
        | .ok rest => skipWithin fuel .next opened rest
  | _ + 1, .first, [], cs => .ok cs
  | fuel + 1, .first, b :: opened, cs =>
    match skipSpace cs with
    | [] => .error .cutShort
    | c :: rest =>
      if c = b.closing then skipWithin fuel .next opened rest
      else
        match skipName b (c :: rest) with
        | .error e => .error e
        | .ok rest => skipWithin fuel .value (b :: opened) rest
  | _ + 1, .next, [], cs => .ok cs
  | fuel + 1, .next, b :: opened, cs =>
    match skipSpace cs with
    | [] => .error .cutShort
    | c :: rest =>
      if c = ',' then
        match skipName b rest with
        | .error e => .error e
        | .ok rest => skipWithin fuel .value (b :: opened) rest
      else if c = b.closing then skipWithin fuel .next opened rest
      else .error .malformed

/-- Passes over one value. It has to be bracketed and punctuated like JSON, but its numbers need no
double, its surrogates no partner, and its brackets may nest to any depth. -/
def skipValue (cs : List Char) : Except Fault (List Char) :=
  skipWithin (2 * cs.length + 2) .value [] cs

end Gatekeeper.Json
