import Gatekeeper.Text.Hex
import Gatekeeper.Toml.Value

namespace Gatekeeper.Toml

def readCodePoint (digits : Nat) (cs : List Char) : Read Char :=
  if (cs.take digits).length = digits then
    (Text.Hex.number? (cs.take digits)).bind fun n ↦
      if n.isValidChar then some (Char.ofNat n, cs.drop digits) else none
  else none

def readEscape : List Char → Read Char
  | 'b' :: cs => some ('\x08', cs)
  | 't' :: cs => some ('\t', cs)
  | 'n' :: cs => some ('\n', cs)
  | 'f' :: cs => some ('\x0c', cs)
  | 'r' :: cs => some ('\r', cs)
  | 'e' :: cs => some ('\x1b', cs)
  | '"' :: cs => some ('"', cs)
  | '\\' :: cs => some ('\\', cs)
  | 'x' :: cs => readCodePoint 2 cs
  | 'u' :: cs => readCodePoint 4 cs
  | 'U' :: cs => readCodePoint 8 cs
  | _ => none

def readBasicOnto : Nat → List Char → List Char → Read String
  | 0, _, _ => none
  | _, _, [] => none
  | fuel + 1, out, c :: cs =>
    if c = '"' then some (String.ofList out.reverse, cs)
    else if c = '\\' then (readEscape cs).bind fun (d, rest) ↦ readBasicOnto fuel (d :: out) rest
    else if isPlain c then readBasicOnto fuel (c :: out) cs
    else none

def readBasic (cs : List Char) : Read String := readBasicOnto (cs.length + 1) [] cs

def readLiteralOnto (out : List Char) : List Char → Read String
  | [] => none
  | c :: cs =>
    if c = '\'' then some (String.ofList out.reverse, cs)
    else if isPlain c then readLiteralOnto (c :: out) cs
    else none

def readLiteral (cs : List Char) : Read String := readLiteralOnto [] cs

/-- Where a run of quotes ends a string of several lines: the quotes that belong to the string and
the characters behind the closing three. -/
def closing? (quote : Char) (cs : List Char) : Option (List Char × List Char) :=
  let run := (cs.takeWhile (· == quote)).length
  if run < 3 then none
  else
    let own := min (run - 3) 2
    some (List.replicate own quote, cs.drop (own + 3))

/-- The characters behind a line that ends in a backslash: blanks and line ends are passed over. -/
def continued? (cs : List Char) : Option (List Char) :=
  (lineEnd? (skipSpace cs)).map fun rest ↦ passOver rest
where
  passOver : List Char → List Char
    | '\n' :: cs => passOver cs
    | '\r' :: '\n' :: cs => passOver cs
    | c :: cs => if isSpace c then passOver cs else c :: cs
    | [] => []

/-- Reads a string of several lines; escapes are read where `basic` is set. -/
def readLinesOnto (quote : Char) (basic : Bool) : Nat → List Char → List Char → Read String
  | 0, _, _ => none
  | _, _, [] => none
  | fuel + 1, out, c :: cs =>
    if c = quote then
      match closing? quote (c :: cs) with
      | some (own, rest) => some (String.ofList (own ++ out).reverse, rest)
      | none => readLinesOnto quote basic fuel (c :: out) cs
    else if basic && c == '\\' then
      match continued? cs with
      | some rest => readLinesOnto quote basic fuel out rest
      | none => (readEscape cs).bind fun (d, rest) ↦ readLinesOnto quote basic fuel (d :: out) rest
    else if c = '\n' then readLinesOnto quote basic fuel (c :: out) cs
    else if c = '\r' then
      match cs with
      | '\n' :: rest => readLinesOnto quote basic fuel ('\n' :: c :: out) rest
      | _ => none
    else if isPlain c then readLinesOnto quote basic fuel (c :: out) cs
    else none

def readLines (quote : Char) (basic : Bool) (cs : List Char) : Read String :=
  let cs := (lineEnd? cs).getD cs
  readLinesOnto quote basic (cs.length + 1) [] cs

def readQuoted : List Char → Read String
  | '"' :: '"' :: '"' :: cs => readLines '"' true cs
  | '"' :: cs => readBasic cs
  | '\'' :: '\'' :: '\'' :: cs => readLines '\'' false cs
  | '\'' :: cs => readLiteral cs
  | _ => none

def readQuotedKey : List Char → Read String
  | '"' :: '"' :: '"' :: _ => none
  | '"' :: cs => readBasic cs
  | '\'' :: '\'' :: '\'' :: _ => none
  | '\'' :: cs => readLiteral cs
  | _ => none

end Gatekeeper.Toml
