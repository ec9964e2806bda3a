import Gatekeeper.Database.Basic
import Gatekeeper.Disk.Session
import Gatekeeper.Text.Hex

namespace Gatekeeper

inductive Access where
  | read
  | write
  | create
  | memory
deriving DecidableEq, Repr

namespace Access

def ofName? : String → Option Access
  | "ro" => some read
  | "rw" => some write
  | "rwc" => some create
  | "memory" => some memory
  | _ => none

/-- The rank of an access, which a later option cannot raise, unless to memory. -/
def rank : Access → Nat
  | read => 1
  | write => 2
  | create => 6
  | memory => 128

end Access

inductive FileSystem where
  | usual
  | exclusive
  | directoryLocks
  | noLocks
  | memory
deriving DecidableEq, Repr

namespace FileSystem

def ofName? : String → Option FileSystem
  | "unix" => some usual
  | "unix-excl" => some exclusive
  | "unix-dotfile" => some directoryLocks
  | "unix-none" => some noLocks
  | "memdb" => some memory
  | _ => none

def name : FileSystem → String
  | usual => "unix"
  | exclusive => "unix-excl"
  | directoryLocks => "unix-dotfile"
  | noLocks => "unix-none"
  | memory => "memdb"

end FileSystem

/-- What a path stands for. One that starts with `file:` is an address: behind an authority comes
the path itself, and behind a question mark come options; a zero byte ends the part it stands in.
Every other path stands for itself. -/
structure Address where
  path : String
  access : Access := .create
  fileSystem : FileSystem := .usual
  shared : Bool := false
  options : List (String × String) := []

namespace Address

def decode : List Char → Bytes
  | '%' :: a :: b :: rest =>
    match Text.Hex.digit? a, Text.Hex.digit? b with
    | some high, some low => UInt8.ofNat (16 * high + low) :: decode rest
    | _, _ => 37 :: decode (a :: b :: rest)
  | c :: rest => Bytes.ofString (String.singleton c) ++ decode rest
  | [] => []

def decodeText (part : List Char) : String :=
  Disk.Path.ofBytes ((decode part).takeWhile (· != 0))

def split (separator : Char) : List Char → List (List Char)
  | [] => [[]]
  | c :: cs =>
    if c = separator then [] :: split separator cs
    else
      match split separator cs with
      | [] => [[c]]
      | part :: parts => (c :: part) :: parts

def optionOf (part : List Char) : String × String :=
  (decodeText (part.takeWhile (· != '=')), decodeText ((part.dropWhile (· != '=')).drop 1))

/-- The options behind the question mark; those without a name do not count. -/
def optionsOf (query : List Char) : List (String × String) :=
  ((split '&' query).map optionOf).filter fun o ↦ !o.1.isEmpty

/-- What comes behind the authority, which may only be this machine. -/
def afterAuthority? : List Char → Option (List Char)
  | '/' :: '/' :: rest =>
    let authority := String.ofList (rest.takeWhile (· != '/'))
    if authority = "" ∨ authority = "localhost" then some (rest.dropWhile (· != '/')) else none
  | cs => some cs

def apply (a : Address) : String × String → Except EngineFault Address
  | ("cache", "shared") => .ok { a with shared := true }
  | ("cache", "private") => .ok { a with shared := false }
  | ("cache", _) => .error .badAddress
  | ("mode", value) =>
    match Access.ofName? value with
    | none => .error .badAddress
    | some access =>
      if access = .memory ∨ access.rank ≤ a.access.rank then .ok { a with access } else .error .badAddress
  | _ => .ok a

/-- The file system that the last option for it names. -/
def fileSystemOf (options : List (String × String)) : Except EngineFault FileSystem :=
  match options.reverse.lookup "vfs" with
  | none => .ok .usual
  | some value =>
    match FileSystem.ofName? value with
    | some fileSystem => .ok fileSystem
    | none => .error .badAddress

/-- The number that the digits at the start of a text make up, if it is not too large. -/
def leadingNumber : List Char → Nat
  | '0' :: x :: cs =>
    let digits := cs.takeWhile fun c ↦ (Text.Hex.digit? c).isSome
    if (x = 'x' ∨ x = 'X') ∧ !digits.isEmpty then limited ((Text.Hex.number? digits).getD 0)
    else limited (decimal ('0' :: x :: cs))
  | cs => limited (decimal cs)
where
  decimal (cs : List Char) : Nat :=
    (cs.takeWhile Char.isDigit).foldl (fun n c ↦ 10 * n + (c.toNat - 48)) 0
  limited (n : Nat) : Nat := if n < Nat.pow 2 31 then n else 0

def means (value : String) : Bool :=
  if (value.toList.head?).any Char.isDigit then leadingNumber value.toList % 256 != 0
  else ["on", "yes", "true"].contains value.toLower

/-- Whether the first option with a name says yes. -/
def affirms (a : Address) (name : String) : Bool := ((a.options.lookup name).map means).getD false

/-- Whether a path is an address with parts. -/
def isComposed (path : String) : Bool := "file:".toList.isPrefixOf path.toList

def parse (path : String) : Except EngineFault Address :=
  if path.toList.contains '\x00' then .error .badAddress
  else if isComposed path then
    match afterAuthority? (path.toList.drop 5) with
    | none => .error .badAddress
    | some cs => do
      let cs := cs.takeWhile (· != '#')
      let options := optionsOf ((cs.dropWhile (· != '?')).drop 1)
      let fileSystem ← fileSystemOf options
      options.foldlM apply { path := decodeText (cs.takeWhile (· != '?')), fileSystem, options }
  else .ok { path }

def memoryPath : String := ":memory:"

def isInMemory (a : Address) : Bool := a.path == memoryPath || a.access == .memory

def isReadOnly (a : Address) : Bool := a.access == .read

def isFixed (a : Address) : Bool := a.affirms "immutable"

def locking (a : Address) : Locking :=
  if a.affirms "nolock" then .none
  else
    match a.fileSystem with
    | .usual => .usual
    | .exclusive => .exclusive
    | .directoryLocks => .byDirectory
    | _ => .none

end Address

end Gatekeeper
