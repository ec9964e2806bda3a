import Gatekeeper.Database.Basic

namespace Gatekeeper.Database.Format

/-- A number whose first byte is the greatest. -/
def number (bytes : Bytes) : Nat := bytes.foldl (fun n b ↦ 256 * n + b.toNat) 0

def signed (bytes : Bytes) : Int :=
  let n := number bytes
  let range := Nat.pow 256 bytes.length
  if 2 * n < range then n else (n : Int) - range

/-- Reads a number in groups of seven bits, of which all but the last are marked; there are at most
`groups` of them, and a byte that follows them is taken whole. -/
def readNumber (groups n : Nat) : Bytes → Option (Nat × Bytes)
  | [] => none
  | b :: rest =>
    if groups = 0 then some (256 * n + b.toNat, rest)
    else if b.toNat < 128 then some (128 * n + b.toNat, rest)
    else readNumber (groups - 1) (128 * n + (b.toNat - 128)) rest

def readVarying (bytes : Bytes) : Option (Nat × Bytes) := readNumber 8 0 bytes

inductive Value where
  | null
  | integer (n : Int)
  | real (bytes : Bytes)
  | blob (bytes : Bytes)
  | text (bytes : Bytes)

def sizeOf (type : Nat) : Nat :=
  match type with
  | 5 => 6
  | 6 => 8
  | 7 => 8
  | 8 => 0
  | 9 => 0
  | 10 => 0
  | 11 => 0
  | n => if n < 5 then n else (n - 12) / 2

def valueOf (type : Nat) (bytes : Bytes) : Value :=
  if type = 0 then .null
  else if type = 7 then .real bytes
  else if type = 8 then .integer 0
  else if type = 9 then .integer 1
  else if type < 12 then .integer (signed bytes)
  else if type % 2 = 0 then .blob bytes
  else .text bytes

def readTypes : Nat → Bytes → Option (List Nat)
  | _, [] => some []
  | 0, _ => none
  | fuel + 1, bytes =>
    (readVarying bytes).bind fun (type, rest) ↦ (readTypes fuel rest).map (type :: ·)

def readValues : List Nat → Bytes → Option (List Value)
  | [], _ => some []
  | type :: types, bytes =>
    if bytes.length < sizeOf type then none
    else (readValues types (bytes.drop (sizeOf type))).map (valueOf type (bytes.take (sizeOf type)) :: ·)

/-- Reads a row: the length of its head, the types in the head, and the values. -/
def readRow (bytes : Bytes) : Option (List Value) := do
  let (size, rest) ← readVarying bytes
  let head := size - (bytes.length - rest.length)
  let types ← readTypes head (rest.take head)
  readValues types (rest.drop head)

structure Pages where
  bytes : Array UInt8
  size : Nat
  usable : Nat

namespace Pages

def count (f : Pages) : Nat := (f.bytes.size + f.size - 1) / f.size

/-- Some bytes of a page from an offset on; the first page is number one. -/
def slice (f : Pages) (page offset length : Nat) : Bytes :=
  let start := (page - 1) * f.size + offset
  (f.bytes.extract start (start + length)).toList

def numberAt (f : Pages) (page offset length : Nat) : Nat := number (f.slice page offset length)

/-- The bytes in a chain of pages, each of which starts with the number of the next. -/
def chain (f : Pages) : Nat → Nat → Bytes
  | 0, _ => []
  | fuel + 1, page =>
    if page = 0 then []
    else f.slice page 4 (f.usable - 4) ++ chain f fuel (f.numberAt page 0 4)

/-- How many of the bytes of a long row stand in the leaf. -/
def localSize (f : Pages) (size : Nat) : Nat :=
  let least := (f.usable - 12) * 32 / 255 - 23
  let most := f.usable - 35
  if size ≤ most then size
  else
    let fitting := least + (size - least) % (f.usable - 4)
    if fitting ≤ most then fitting else least

def payload (f : Pages) (size : Nat) (bytes : Bytes) : Option Bytes :=
  let here := f.localSize size
  let whole :=
    if here = size then bytes.take size
    else bytes.take here ++ (f.chain f.count (number ((bytes.drop here).take 4))).take (size - here)
  if whole.length = size then some whole else none

/-- Where the head of a page is: the first page has the head of the file before its own. -/
def headOf (page : Nat) : Nat := if page = 1 then 100 else 0

def entriesOf (f : Pages) (page head : Nat) : List Nat :=
  let entries := f.numberAt page (headOf page + 3) 2
  (List.range entries).map fun i ↦ f.numberAt page (headOf page + head + 2 * i) 2

def leafRow (f : Pages) (page offset : Nat) : Option (List Value) := do
  let (size, rest) ← readVarying (f.slice page offset (f.usable - offset))
  let (_, rest) ← readVarying rest
  readRow (← f.payload size rest)

/-- The rows of the table with a root, which is at most `depth` pages deep. -/
def rows (f : Pages) : Nat → Nat → Option (List (List Value))
  | 0, _ => none
  | depth + 1, page =>
    if page = 0 ∨ f.count < page then none
    else
      match f.numberAt page (headOf page) 1 with
      | 13 => (f.entriesOf page 8).mapM (f.leafRow page)
      | 5 =>
        let children := (f.entriesOf page 12).map (f.numberAt page · 4) ++
          [f.numberAt page (headOf page + 8) 4]
        (children.mapM (rows f depth)).map List.flatten
      | _ => none

end Pages

def maxDepth : Nat := 20

def rootOf? (schema : List (List Value)) (name : String) : Option Nat :=
  schema.findSome? fun
    | .text kind :: .text found :: _ :: .integer root :: _ =>
      if kind = Bytes.ofString "table" ∧ found.toString?.map String.toLower = some name then
        some root.toNat
      else none
    | _ => none

def cellOf : Value → Cell
  | .null => .null
  | .integer n => .integer n
  | .real bytes => .real bytes
  | .blob bytes => .blob bytes
  | .text bytes => bytes.toString?.elim (.garbled bytes) .text

def versionOf? (values : List Value) : Option Cell := values.head?.map cellOf

def keyRowOf? : List Value → Option Row
  | identity :: key :: _ => some ⟨cellOf identity, cellOf key⟩
  | _ => none

/-- The rows of the table with a name, read one by one, if there is such a table. -/
def readTable? (f : Pages) (schema : List (List Value)) (name : String) (read : List Value → Option α) :
    Option (Option (List α)) :=
  match rootOf? schema name with
  | none => some none
  | some root => ((f.rows maxDepth root).bind fun rows ↦ rows.mapM read).map some

def tables? (f : Pages) : Option Database := do
  let schema ← f.rows maxDepth 1
  let versions ← readTable? f schema "store_meta" versionOf?
  let keys ← readTable? f schema "capability_keys" keyRowOf?
  some { versions, keys := keys.map KeyTable.ofList }

def magic : Bytes := Bytes.ofString "SQLite format 3" ++ [0]

def pageSizes : List Nat := [512, 1024, 2048, 4096, 8192, 16384, 32768, 65536]

def pagesOf? (bytes : Bytes) : Option Pages :=
  let byteAt (i : Nat) : Nat := (bytes.drop i).head?.elim 0 UInt8.toNat
  let written := 256 * byteAt 16 + byteAt 17
  let size := if written = 1 then 65536 else written
  if bytes.take magic.length = magic ∧ byteAt 19 ≤ 2 ∧ (bytes.drop 21).take 3 = [64, 32, 32] ∧
      pageSizes.contains size ∧ 480 + byteAt 20 ≤ size then
    some { bytes := bytes.toArray, size, usable := size - byteAt 20 }
  else none

/-- How many pages a file says it has, if what it says is up to date. -/
def statedCount? (bytes : Bytes) : Option Nat :=
  let stated := number ((bytes.drop 28).take 4)
  if stated ≠ 0 ∧ (bytes.drop 92).take 4 = (bytes.drop 24).take 4 then some stated else none

def isBlank (bytes : Bytes) : Bool := bytes.length ≤ 1

/-- The database in the bytes of a file. A file is a sequence of pages of one size; the rows of a
table are in the leaves of a tree of pages. The first page is the root of the table that says where
the others are. -/
def read (bytes : Bytes) : Except EngineFault Image :=
  if isBlank bytes then .ok {}
  else
    match pagesOf? bytes with
    | none => .error .notADatabase
    | some f =>
      if f.count < (statedCount? bytes).getD 0 then .error .malformed
      else
        match tables? f with
        | none => .error .malformed
        | some tables =>
          .ok { journal := if (bytes.drop 19).head? = some 2 then .wal else .delete, tables }

end Gatekeeper.Database.Format
