namespace Gatekeeper

abbrev Bytes := List UInt8

namespace Bytes

def ofString (s : String) : Bytes :=
  s.toUTF8.data.toList

def toString? (bytes : Bytes) : Option String :=
  String.fromUTF8? ⟨bytes.toArray⟩

theorem toString?_ofString (s : String) : toString? (ofString s) = some s := by
  simp only [toString?, ofString, String.fromUTF8?, Array.toArray_toList]
  exact dif_pos s.isValidUTF8

/-- The least and the greatest byte that may stand at each place behind the first byte of a character. -/
def tails (first : UInt8) : List (UInt8 × UInt8) :=
  let tail := (0x80, 0xbf)
  if 0xc2 ≤ first ∧ first ≤ 0xdf then [tail]
  else if first = 0xe0 then [(0xa0, 0xbf), tail]
  else if first = 0xed then [(0x80, 0x9f), tail]
  else if 0xe1 ≤ first ∧ first ≤ 0xef then [tail, tail]
  else if first = 0xf0 then [(0x90, 0xbf), tail, tail]
  else if 0xf1 ≤ first ∧ first ≤ 0xf3 then [tail, tail, tail]
  else if first = 0xf4 then [(0x80, 0x8f), tail, tail]
  else []

/-- Where the reading of a text stands: the bytes of a character begun, and what must still follow. -/
structure Cursor where
  held : Bytes := []
  awaited : List (UInt8 × UInt8) := []

namespace Cursor

variable (broken : Bytes → List Char)

def begin (b : UInt8) : List Char × Cursor :=
  if b < 0x80 then ([Char.ofNat b.toNat], {})
  else
    match tails b with
    | [] => (broken [b], {})
    | awaited => ([], { held := [b], awaited })

def next (c : Cursor) (b : UInt8) : List Char × Cursor :=
  match c.awaited with
  | [] => begin broken b
  | (low, high) :: awaited =>
    if low ≤ b ∧ b ≤ high then
      match awaited with
      | [] => (((toString? (c.held ++ [b])).getD "").toList, {})
      | awaited => ([], { held := c.held ++ [b], awaited })
    else
      -- The byte does not go on with the character that was begun, but may begin one itself.
      (broken c.held ++ (begin broken b).1, (begin broken b).2)

/-- Reads bytes as a text, with characters in the place of those that are none. -/
def read (c : Cursor) : Bytes → List Char
  | [] => if c.held.isEmpty then [] else broken c.held
  | b :: bytes => (c.next broken b).1 ++ (c.next broken b).2.read bytes

end Cursor

def mark : Char := '\ufffd'

/-- The text of bytes of which some may be no text: one mark for each character that is broken off. -/
def lossy (bytes : Bytes) : String := String.ofList (({} : Cursor).read (fun _ ↦ [mark]) bytes)

/-- The bytes as a number, the first byte least. -/
def toNat (bytes : Bytes) : Nat :=
  bytes.foldr (fun b n ↦ b.toNat + 256 * n) 0

/-- The `count` low bytes of a number, the least first. -/
def ofNat : Nat → Nat → Bytes
  | 0, _ => []
  | count + 1, n => UInt8.ofNat (n % 256) :: ofNat count (n / 256)

theorem length_ofNat (count n : Nat) : (ofNat count n).length = count := by
  induction count generalizing n with
  | zero => rfl
  | succ count ih => simp [ofNat, ih]

end Bytes

end Gatekeeper
