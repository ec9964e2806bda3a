import Gatekeeper.Text.Bytes

namespace Gatekeeper.Disk

abbrev Place := List String

namespace Place

def text (p : Place) : String := p.foldl (fun out name ↦ out ++ "/" ++ name) ""

def bytes (p : Place) : Nat := (text p).utf8ByteSize

def name (p : Place) : String := p.getLastD ""

/-- The place beside another one whose name is longer by a suffix. -/
def beside (p : Place) (suffix : String) : Place := p.dropLast ++ [name p ++ suffix]

end Place

end Gatekeeper.Disk

namespace Gatekeeper.Disk.Path

def pieces : List Char → List (List Char)
  | [] => [[]]
  | '/' :: cs => [] :: pieces cs
  | c :: cs =>
    match pieces cs with
    | [] => [[c]]
    | p :: ps => (c :: p) :: ps

def isName (piece : List Char) : Bool := piece != [] && piece != ['.']

/-- The names between the slashes. Empty names do not count, nor does a dot, unless the path starts
with it; a slash at the start is a component itself. -/
def componentsOf (cs : List Char) : List (List Char) :=
  let start : List (List Char) := match pieces cs with
    | [] :: _ :: _ => [['/']]
    | ['.'] :: _ => [['.']]
    | _ => []
  start ++ (pieces cs).filter isName

def components (path : String) : List String := (componentsOf path.toList).map String.ofList

def maxComponentBytes : Nat := 255

def maxPathBytes : Nat := 4096

def hasLongComponent (path : String) : Bool :=
  (components path).any fun c ↦ decide (maxComponentBytes < c.utf8ByteSize)

def standIn (b : UInt8) : Char := Char.ofNat (0xe000 + b.toNat)

/-- The text by which the disk knows bytes. A byte that is no part of a character is known by one for
private use, which takes as many bytes as the mark in what is shown. -/
def ofBytes (bytes : Bytes) : String :=
  bytes.toString?.getD (String.ofList (({} : Bytes.Cursor).read (List.map standIn) bytes))

end Gatekeeper.Disk.Path

namespace Gatekeeper.Disk

inductive RawPath where
  | text (path : String)
  | bytes (raw : Bytes) (noText : raw.toString? = none)
deriving DecidableEq, Repr

namespace RawPath

/-- The path as it is shown. A slash is never among the bytes for which a mark stands, so that the
components of what is shown are the components of the path as they are shown. -/
def shown : RawPath → String
  | text path => path
  | bytes raw _ => raw.lossy

def known : RawPath → String
  | text path => path
  | bytes raw _ => Path.ofBytes raw

end RawPath

end Gatekeeper.Disk
