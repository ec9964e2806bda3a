import Gatekeeper.Database.Format
import Gatekeeper.Disk.Session

namespace Gatekeeper

/-- What is in a file: bytes, or what the database engine has written, as what it says. -/
inductive Content where
  | bytes (b : Bytes)
  | image (i : Image)
  /-- The log of a database whose tables are these by now. -/
  | log (tables : Database)
  | index
deriving Inhabited

namespace Content

def isEmpty : Content → Bool
  | bytes b => b.isEmpty
  | _ => false

def isBlank : Content → Bool
  | bytes b => Database.Format.isBlank b
  | _ => false

def image? : Content → Except EngineFault Image
  | bytes b => Database.Format.read b
  | image i => .ok i
  | log _ => .error .notADatabase
  | index => .error .notADatabase

/-- Whether a file with this content is longer than a limit, as none is that the engine has written. -/
def exceeds (limit : Nat) : Content → Bool
  | bytes b => decide (limit < b.length)
  | _ => false

def text? : Content → Option String
  | bytes b => b.toString?
  | _ => none

end Content

inductive Entry where
  | directory
  | file (number : Nat)
deriving DecidableEq, Repr, Inhabited

/-- Directories and files, as a program sees them. A name stands for a file by number, so that a
file that is open lives on when its name is gone. -/
structure Disk where
  entries : Catalog Entry := ∅
  contents : List Content := []
  here : Disk.Place := []
  /-- Which of the programs that use the disk is at work. -/
  program : Nat := 0
  sessions : List Session := []
  opened : Nat := 0
deriving Inhabited

namespace Disk

def node? (d : Disk) (p : Place) : Option Entry :=
  if p.isEmpty then some .directory else d.entries.get? p.text

def isDirectoryAt (d : Disk) (p : Place) : Bool := d.node? p == some .directory

def fileAt? (d : Disk) (p : Place) : Option Nat :=
  match d.node? p with
  | some (.file n) => some n
  | _ => none

def makeDirectory (d : Disk) (p : Place) : Disk :=
  { d with entries := d.entries.insert p.text .directory }

def walk (d : Disk) (p : Place) : List String → Option Place
  | [] => some p
  | name :: names =>
    if d.isDirectoryAt p then
      if name = "" ∨ name = "." then walk d p names
      else if name = ".." then walk d p.dropLast names
      else if Path.maxComponentBytes < name.utf8ByteSize then none
      else walk d (p ++ [name]) names
    else none

def start (d : Disk) (path : String) : Place :=
  if path.toList.head? = some '/' then [] else d.here

def isPath (path : String) : Bool :=
  !path.isEmpty && !path.toList.contains '\x00' && decide (path.utf8ByteSize < Path.maxPathBytes)

/-- The place that a path leads to, whether or not there is anything. -/
def find? (d : Disk) (path : String) : Option Place :=
  if isPath path then d.walk (d.start path) ((Path.pieces path.toList).map String.ofList) else none

def isDirectory (d : Disk) (path : String) : Bool :=
  match d.find? path with
  | some p => d.isDirectoryAt p
  | none => false

def content? (d : Disk) (file : Nat) : Option Content := d.contents[file]?

def setContent (d : Disk) (file : Nat) (c : Content) : Disk :=
  { d with contents := d.contents.set file c }

def addContent (d : Disk) (c : Content) : Nat × Disk :=
  (d.contents.length, { d with contents := d.contents ++ [c] })

def createFile (d : Disk) (p : Place) (c : Content) : Nat × Disk :=
  let (n, d) := d.addContent c
  (n, { d with entries := d.entries.insert p.text (.file n) })

/-- Takes the name of a file away; a directory stays. -/
def unlink (d : Disk) (p : Place) : Disk :=
  match d.node? p with
  | some (.file _) => { d with entries := d.entries.erase p.text }
  | _ => d

def canCreate (d : Disk) (p : Place) : Bool :=
  d.isDirectoryAt p.dropLast && decide (p.name.utf8ByteSize ≤ Path.maxComponentBytes)

/-- Opens the file at a place, which is made if there is nothing. -/
def openAt? (d : Disk) (p : Place) : Option (Nat × Disk) :=
  match d.node? p with
  | some (.file n) => some (n, d)
  | some .directory => none
  | none => if d.canCreate p then some (d.createFile p (.bytes [])) else none

/-- Whether there is something at a place that is not an empty file. -/
def isPresent (d : Disk) (p : Place) : Bool :=
  match d.node? p with
  | none => false
  | some .directory => true
  | some (.file n) => !(d.content? n).all Content.isEmpty

def read? (d : Disk) (path : String) : Option Content :=
  ((d.find? path).bind d.fileAt?).bind d.content?

def touchFile? (d : Disk) (path : String) : Option (Nat × Disk) := (d.find? path).bind d.openAt?

/-- Appends bytes to a file; behind what the engine has written they have no meaning. -/
def append (d : Disk) (file : Nat) (more : Bytes) : Disk :=
  match d.content? file with
  | some (.bytes b) => d.setContent file (.bytes (b ++ more))
  | _ => d

/-- Makes the directories that are missing on the way, up to the first obstacle; answers whether all
are there. -/
def makeAll (d : Disk) (p : Place) : List String → Bool × Disk
  | [] => (true, d)
  | "/" :: names => makeAll d [] names
  | "." :: names => makeAll d p names
  | ".." :: names => makeAll d p.dropLast names
  | name :: names =>
    match d.node? (p ++ [name]) with
    | some .directory => makeAll d (p ++ [name]) names
    | some _ => (false, d)
    | none => makeAll (d.makeDirectory (p ++ [name])) (p ++ [name]) names

def makeDirectories (d : Disk) (components : List String) : Bool × Disk :=
  if components.any fun c ↦ c.toList.contains '\x00' then (false, d) else d.makeAll d.here components

end Disk

end Gatekeeper
