import Gatekeeper.Database.Format

namespace Gatekeeper.Database.Layout

def pageSize : Nat := 4096

def bigEndian (count n : Nat) : Bytes := (Bytes.ofNat count n).reverse

/-- A number in groups of seven bits, of which all but the last are marked. -/
def varying (n : Nat) : Bytes :=
  let low := UInt8.ofNat (n % 128)
  if n < 128 then [low] else marked 8 (n / 128) ++ [low]
where
  marked : Nat → Nat → Bytes
    | 0, _ => []
    | fuel + 1, n =>
      (if n < 128 then [] else marked fuel (n / 128)) ++ [UInt8.ofNat (128 + n % 128)]

/-- The widths of numbers, with the types that stand for them. -/
def widths : List (Nat × Nat) := [(1, 1), (2, 2), (3, 3), (4, 4), (5, 6)]

def integer (n : Int) : Nat × Bytes :=
  if n = 0 then (8, [])
  else if n = 1 then (9, [])
  else
    let (type, width) :=
      (widths.find? fun (_, width) ↦
        let half : Int := Nat.pow 256 width / 2
        decide (-half ≤ n ∧ n < half)).getD (6, 8)
    (type, bigEndian width (n % (Nat.pow 256 width : Int)).toNat)

def value : Format.Value → Nat × Bytes
  | .null => (0, [])
  | .real bytes => (7, bytes)
  | .integer n => integer n
  | .blob bytes => (12 + 2 * bytes.length, bytes)
  | .text bytes => (13 + 2 * bytes.length, bytes)

def row (values : List Format.Value) : Bytes :=
  let parts := values.map value
  let types := parts.flatMap fun p ↦ varying p.1
  let head := types.length + 1
  let length := if head < 128 then varying head else varying (head + 1)
  length ++ types ++ parts.flatMap Prod.snd

def text (s : String) : Format.Value := .text (Bytes.ofString s)

/-- Pages that have been laid out, the last one first, behind the first page of the file. -/
structure Pages where
  pages : List Bytes := []

abbrev Builder := StateM Pages

def nextPage : Builder Nat := return (← get).pages.length + 2

def addPage (bytes : Bytes) : Builder Nat := do
  let n ← nextPage
  modify fun s ↦ { s with pages := bytes :: s.pages }
  return n

def padded (bytes : Bytes) : Bytes := bytes ++ List.replicate (pageSize - bytes.length) 0

def addChain : Nat → Bytes → Builder Unit
  | 0, _ => return
  | fuel + 1, bytes => do
    let room := pageSize - 4
    let n ← nextPage
    let next := if room < bytes.length then n + 1 else 0
    let _ ← addPage (padded (bigEndian 4 next ++ bytes.take room))
    if room < bytes.length then addChain fuel (bytes.drop room)

/-- What stands in a tree of a row of which at most `most` bytes may: all of it, or its start and the number
of the page in which it goes on. -/
def shorten (most : Nat) (payload : Bytes) : Builder Bytes := do
  let size := payload.length
  if size ≤ most then return payload
  else
    let least := (pageSize - 12) * 32 / 255 - 23
    let fitting := least + (size - least) % (pageSize - 4)
    let here := if fitting ≤ most then fitting else least
    let n ← nextPage
    addChain size (payload.drop here)
    return payload.take here ++ bigEndian 4 n

/-- The offsets of entries that are laid one below the other from the end of a page. -/
def offsets : Nat → List Bytes → List Nat
  | _, [] => []
  | top, c :: cs => (top - c.length) :: offsets (top - c.length) cs

/-- A page of a tree behind `before`, which only the first page of the file has. -/
def page (before : Bytes) (type : UInt8) (last? : Option Nat) (entries : List Bytes) : Bytes :=
  let starts := offsets pageSize entries
  let head := before ++ [type, 0, 0] ++ bigEndian 2 entries.length ++
    bigEndian 2 (starts.getLastD pageSize) ++ [0] ++ last?.elim [] (bigEndian 4) ++
    starts.flatMap (bigEndian 2)
  let content := entries.reverse.flatten
  head ++ List.replicate (pageSize - head.length - content.length) 0 ++ content

/-- How many of the entries fit into `room` bytes, with two bytes each for their offsets. -/
def fitting (room : Nat) : List Bytes → Nat
  | [] => 0
  | c :: cs => if c.length + 2 ≤ room then fitting (room - (c.length + 2)) cs + 1 else 0

/-- Room for the entries of a page, behind the longer of the two heads. -/
def room : Nat := pageSize - 12

abbrev Numbered := List (Bytes × Nat)

/-- Fills pages with entries from left to right; above each page goes its number with its greatest row
number. -/
def fillTable (isLeaf : Bool) : Nat → Numbered → Builder (List (Nat × Nat))
  | 0, _ => return []
  | fuel + 1, entries => do
    if entries.isEmpty then return []
    else
      let most := max 1 (fitting room (entries.map Prod.fst))
      let count := if entries.length = most + 1 ∧ 1 < most then most - 1 else most
      let group := entries.take count
      let greatest := (group.getLast?.map Prod.snd).getD 0
      let n ← addPage <|
        if isLeaf then page [] 13 none (group.map Prod.fst)
        else
          let last := (group.getLast?.map fun e ↦ Format.number (e.1.take 4)).getD 0
          page [] 5 (some last) (group.dropLast.map Prod.fst)
      return (n, greatest) :: (← fillTable isLeaf fuel (entries.drop count))

/-- Lays levels above pages until there is one page. -/
def raiseTable : Nat → List (Nat × Nat) → Builder Nat
  | 0, _ => return 0
  | _, [(n, _)] => return n
  | fuel + 1, below => do
    let entries := below.map fun (n, greatest) ↦ (bigEndian 4 n ++ varying greatest, greatest)
    raiseTable fuel (← fillTable false entries.length entries)

def table (rows : List (List Format.Value)) : Builder Nat := do
  let entries ← (rows.zipIdx 1).mapM fun (values, number) ↦ do
    let payload := row values
    let here ← shorten (pageSize - 35) payload
    return (varying payload.length ++ varying number ++ here, number)
  if entries.isEmpty then addPage (page [] 13 none [])
  else raiseTable entries.length (← fillTable true entries.length entries)

/-- How many entries go into a page and leave one to go above it and some to follow. -/
def share (entries : List Bytes) : Nat :=
  let count := max 1 (fitting room entries)
  if entries.length ≤ count then entries.length
  else if entries.length = count + 1 then count - 1
  else count

/-- Fills leaves with entries; between two leaves one entry is left to go above them. -/
def fillLeaves : Nat → List Bytes → Builder (List (Nat × Option Bytes))
  | 0, _ => return []
  | fuel + 1, entries => do
    let count := share entries
    let n ← addPage (page [] 10 none (entries.take count))
    match entries.drop count with
    | [] => return [(n, none)]
    | above :: rest => return (n, some above) :: (← fillLeaves fuel rest)

def fillAbove : Nat → List (Nat × Option Bytes) → Builder (List (Nat × Option Bytes))
  | 0, _ => return []
  | fuel + 1, below => do
    let entries := below.filterMap fun (n, above?) ↦ above?.map (bigEndian 4 n ++ ·)
    let count := share entries
    let last := (below.drop count).head?
    let n ← addPage (page [] 2 (last.map Prod.fst) (entries.take count))
    match below.drop (count + 1), last.bind Prod.snd with
    | rest@(_ :: _), some above => return (n, some above) :: (← fillAbove fuel rest)
    | _, _ => return [(n, none)]

def raiseIndex : Nat → List (Nat × Option Bytes) → Builder Nat
  | 0, _ => return 0
  | _, [(n, _)] => return n
  | fuel + 1, below => do raiseIndex fuel (← fillAbove below.length below)

def index (keys : List (Format.Value × Nat)) : Builder Nat := do
  let entries ← keys.mapM fun (key, number) ↦ do
    let payload := row [key, .integer number]
    return varying payload.length ++ (← shorten ((pageSize - 12) * 64 / 255 - 23) payload)
  raiseIndex (entries.length + 1) (← fillLeaves (entries.length + 1) entries)

def cellValue : Cell → Format.Value
  | .blob bytes => .blob bytes
  | .text s => text s
  | .garbled bytes => .text bytes
  | .integer n => .integer n
  | .real bytes => .real bytes
  | .null => .null

def versionsText : String := "CREATE TABLE store_meta (version INTEGER NOT NULL)"

def keysText (identity : String) : String :=
  "CREATE TABLE capability_keys (identity " ++ identity ++ ", key_bytes BLOB NOT NULL, " ++
    "created_at INTEGER NOT NULL)"

def rank : Cell → Nat
  | .null => 0
  | .integer _ => 1
  | .real _ => 1
  | .text _ => 2
  | .garbled _ => 2
  | .blob _ => 3

def precedes (a b : Cell) : Bool := rank a < rank b ∨ rank a = rank b ∧ a.bytes < b.bytes

def enter (e : Cell × Nat) : List (Cell × Nat) → List (Cell × Nat)
  | [] => [e]
  | f :: fs => if precedes f.1 e.1 then f :: enter e fs else e :: f :: fs

/-- Whether identities can be those of a column of texts that is a primary key, which may be null. -/
def areKeyed (identities : List Cell) : Bool :=
  (identities.all fun c ↦ rank c ≠ 1) ∧ (identities.filter (· ≠ .null)).Nodup

def schemaRow (kind name table : String) (root : Nat) (sql : Format.Value) : List Format.Value :=
  [text kind, text name, text table, .integer root, sql]

def tables (d : Database) : Builder (List (List Format.Value)) := do
  let versions ← match d.versions with
    | none => pure []
    | some vs => do
      let root ← table (vs.map fun v ↦ [cellValue v])
      pure [schemaRow "table" "store_meta" "store_meta" root (text versionsText)]
  let keys ← match d.keys with
    | none => pure []
    | some t => do
      let root ← table (t.rows.map fun r ↦ [cellValue r.identity, cellValue r.key, .integer 0])
      let identities := t.rows.map Row.identity
      let tableRow := schemaRow "table" "capability_keys" "capability_keys" root
      if areKeyed identities then
        let indexRoot ← index (((identities.zipIdx 1).foldr enter []).map (Prod.map cellValue id))
        pure [tableRow (text (keysText "TEXT PRIMARY KEY")),
          schemaRow "index" "sqlite_autoindex_capability_keys_1" "capability_keys" indexRoot .null]
      else pure [tableRow (text (keysText "TEXT"))]
  return versions ++ keys

/-- The version of the engine that the head of a file names. -/
def engineVersion : Nat := 3051001

def fileHead (journal : JournalMode) (count : Nat) : Bytes :=
  let mode : UInt8 := if journal = .wal then 2 else 1
  Format.magic ++ bigEndian 2 pageSize ++ [mode, mode, 0, 64, 32, 32] ++ bigEndian 4 1 ++
    bigEndian 4 count ++ List.replicate 8 0 ++ bigEndian 4 1 ++ bigEndian 4 4 ++ List.replicate 8 0 ++
    bigEndian 4 1 ++ List.replicate 32 0 ++ bigEndian 4 1 ++ bigEndian 4 engineVersion

/-- The bytes of a file with a database. Beside the table of keys lies the index of its identities.
The time at which a row was made, which nothing here asks for, is written as zero. -/
def write (i : Image) : Bytes :=
  let (rows, laid) := (tables i.tables).run {}
  let entries := (rows.zipIdx 1).map fun (values, number) ↦
    let payload := row values
    varying payload.length ++ varying number ++ payload
  let first := page (fileHead i.journal (laid.pages.length + 1)) 13 none entries
  first ++ laid.pages.reverse.flatten

end Gatekeeper.Database.Layout
