import Gatekeeper.Toml.Quoted
import Gatekeeper.Toml.Scalar

namespace Gatekeeper.Toml

/-- How deep arrays and inline tables may nest, and how many parts a key may have. -/
def maxDepth : Nat := 80

/-- How a table came to be: on the way to another one, and by dotted keys. -/
structure Form where
  implicit : Bool
  dotted : Bool
deriving DecidableEq

def Form.explicit : Form := ⟨false, false⟩

/-- A table under construction; the tables of an array stand last one first. -/
inductive Node where
  | value (v : Toml)
  | table (form : Form) (entries : List (String × Node))
  | tables (items : List (List (String × Node)))

abbrev Entries := List (String × Node)

def replace (key : String) (node : Node) (es : Entries) : Entries :=
  es.map fun e ↦ if e.1 = key then (key, node) else e

/-- Changes the entries at the end of a path. Tables that are missing on the way are made; an array
of tables leads into its last one; dotted keys lead only into tables that no header opened. -/
def alter (dotted : Bool) (f : Form → Entries → Option Entries) :
    List String → Form → Entries → Option Entries
  | [], form, es => f form es
  | key :: path, _, es =>
    match es.lookup key with
    | none => (alter dotted f path ⟨true, dotted⟩ []).map fun inner ↦ (key, .table ⟨true, dotted⟩ inner) :: es
    | some (.table form inner) =>
      if dotted && !form.implicit then none
      else (alter dotted f path form inner).map fun inner ↦ replace key (.table form inner) es
    | some (.tables (last :: before)) =>
      (alter dotted f path .explicit last).map fun last ↦ replace key (.tables (last :: before)) es
    | some _ => none

structure Pair where
  path : List String
  last : String
  value : Toml

def assign (p : Pair) (es : Entries) : Option Entries :=
  alter true
    (fun form es ↦
      if form.dotted = p.path.isEmpty ∨ (es.lookup p.last).isSome then none
      else some ((p.last, .value p.value) :: es))
    p.path .explicit es

def assignAll (ps : List Pair) (es : Entries) : Option Entries :=
  ps.foldlM (fun es p ↦ assign p es) es

structure Header where
  repeated : Bool
  path : List String
  last : String

def openSection (h : Header) (ps : List Pair) (es : Entries) : Option Entries :=
  alter false
    (fun _ es ↦
      match h.repeated, es.lookup h.last with
      | true, none => (assignAll ps []).map fun inner ↦ (h.last, .tables [inner]) :: es
      | true, some (.tables items) =>
        (assignAll ps []).map fun inner ↦ replace h.last (.tables (inner :: items)) es
      | false, none => (assignAll ps []).map fun inner ↦ (h.last, .table .explicit inner) :: es
      | false, some (.table ⟨true, false⟩ inner) =>
        (assignAll ps inner).map fun inner ↦ replace h.last (.table .explicit inner) es
      | _, _ => none)
    h.path .explicit es

mutual

def Node.toToml : Node → Toml
  | .value v => v
  | .table _ es => .table (entriesToToml es)
  | .tables items => .array (itemsToToml [] items)

def entriesToToml : List (String × Node) → List (String × Toml)
  | [] => []
  | (key, node) :: es => (key, node.toToml) :: entriesToToml es

def itemsToToml (out : List Toml) : List (List (String × Node)) → List Toml
  | [] => out
  | es :: rest => itemsToToml (.table (entriesToToml es) :: out) rest

end

def tableOf (ps : List Pair) : Option Toml :=
  (assignAll ps []).map fun es ↦ .table (entriesToToml es)

def isBare (c : Char) : Bool :=
  ('a' ≤ c && c ≤ 'z') || ('A' ≤ c && c ≤ 'Z') || isDigit c || c == '-' || c == '_'

def readKeyPart (cs : List Char) : Read String :=
  match cs with
  | '"' :: _ => readQuotedKey cs
  | '\'' :: _ => readQuotedKey cs
  | _ =>
    let bare := cs.takeWhile isBare
    if bare.isEmpty then none else some (String.ofList bare, cs.drop bare.length)

def readKey : Nat → List String → List Char → Read (List String × String)
  | 0, _, _ => none
  | parts + 1, before, cs =>
    (readKeyPart (skipSpace cs)).bind fun (part, rest) ↦
      match skipSpace rest with
      | '.' :: rest => readKey parts (part :: before) rest
      | rest => some ((before.reverse, part), rest)

/-- Reads a key of an inline table up to its value. Lines may end and comments may stand on both
sides of the equals sign, though not inside the key. -/
def readInlineKey (cs : List Char) : Read (List String × String) :=
  (readKey maxDepth [] cs).bind fun (key, rest) ↦
    match skipTrivia false rest with
    | some ('=' :: rest) => (skipTrivia false rest).map (key, ·)
    | _ => none

mutual

def readValue : Nat → Nat → List Char → Read Toml
  | 0, _, _ => none
  | fuel + 1, depth, cs =>
    match cs with
    | '"' :: _ => (readQuoted cs).map fun (s, rest) ↦ (.string s, rest)
    | '\'' :: _ => (readQuoted cs).map fun (s, rest) ↦ (.string s, rest)
    | '[' :: rest => if depth = 0 then none else readItems fuel (depth - 1) [] rest
    | c :: rest =>
      if c = '\x7b' then if depth = 0 then none else readPairs fuel (depth - 1) [] rest
      else readScalar cs
    | [] => none

def readItems : Nat → Nat → List Toml → List Char → Read Toml
  | 0, _, _, _ => none
  | fuel + 1, depth, out, cs =>
    match skipTrivia false cs with
    | none => none
    | some (']' :: rest) => some (.array out.reverse, rest)
    | some cs =>
      match readValue fuel depth cs with
      | none => none
      | some (v, rest) =>
        match skipTrivia false rest with
        | some (',' :: rest) => readItems fuel depth (v :: out) rest
        | some (']' :: rest) => some (.array (v :: out).reverse, rest)
        | _ => none

def readPairs : Nat → Nat → List Pair → List Char → Read Toml
  | 0, _, _, _ => none
  | fuel + 1, depth, out, cs =>
    match skipTrivia false cs with
    | none => none
    | some ('\x7d' :: rest) => (tableOf out.reverse).map (·, rest)
    | some cs =>
      match readInlineKey cs with
      | none => none
      | some ((path, last), rest) =>
        match readValue fuel depth rest with
        | none => none
        | some (value, rest) =>
          match skipTrivia false rest with
          | some (',' :: rest) => readPairs fuel depth ({ path, last, value } :: out) rest
          | some ('\x7d' :: rest) => (tableOf ({ path, last, value } :: out).reverse).map (·, rest)
          | _ => none

end

/-- Passes over the rest of a line: blanks, a comment, and the line end if the text goes on. -/
def endLine (cs : List Char) : Option (List Char) :=
  match skipSpace cs with
  | [] => some []
  | '#' :: rest =>
    match rest.dropWhile isPlain with
    | [] => some []
    | rest => lineEnd? rest
  | rest => lineEnd? rest

def readHeader (cs : List Char) : Read Header :=
  let (repeated, cs) := match cs with
    | '[' :: rest => (true, rest)
    | _ => (false, cs)
  match readKey maxDepth [] cs with
  | some ((path, last), ']' :: rest) =>
    if repeated then
      match rest with
      | ']' :: rest => some (⟨true, path, last⟩, rest)
      | _ => none
    else some (⟨false, path, last⟩, rest)
  | _ => none

/-- Closes a section: its pairs, which stand last one first, go below its header. -/
def closeSection (header : Option Header) (ps : List Pair) (es : Entries) : Option Entries :=
  match header with
  | none => assignAll ps.reverse es
  | some h => openSection h ps.reverse es

def readSections : Nat → Option Header → List Pair → Entries → List Char → Option Entries
  | 0, _, _, _, _ => none
  | fuel + 1, header, ps, es, cs =>
    match skipTrivia false cs with
    | none => none
    | some [] => closeSection header ps es
    | some ('[' :: rest) =>
      match closeSection header ps es, readHeader rest with
      | some es, some (h, rest) => (endLine rest).bind fun rest ↦ readSections fuel (some h) [] es rest
      | _, _ => none
    | some cs =>
      match readKey maxDepth [] cs with
      | some ((path, last), '=' :: rest) =>
        (readValue (rest.length + 1) maxDepth (skipSpace rest)).bind fun (value, rest) ↦
          (endLine rest).bind fun rest ↦ readSections fuel header ({ path, last, value } :: ps) es rest
      | _ => none

/-- The table that a document holds; a byte order mark in front of it does not count. -/
def parse (s : String) : Option Toml :=
  let cs := match s.toList with
    | '\ufeff' :: rest => rest
    | cs => cs
  (readSections (cs.length + 1) none [] [] cs).map fun es ↦ .table (entriesToToml es)

end Gatekeeper.Toml
