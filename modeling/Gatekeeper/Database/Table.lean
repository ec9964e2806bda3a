import Gatekeeper.Catalog
import Gatekeeper.Text.Bytes

namespace Gatekeeper

inductive Cell where
  | blob (bytes : Bytes)
  | text (s : String)
  /-- A text that is no Unicode. -/
  | garbled (bytes : Bytes)
  | integer (n : Int)
  /-- A number with a fraction, in the eight bytes that the file has for it. -/
  | real (bytes : Bytes)
  | null
deriving DecidableEq

namespace Cell

def bytes : Cell → Bytes
  | blob bytes => bytes
  | text s => Bytes.ofString s
  | garbled bytes => bytes
  | integer n => Bytes.ofString (toString n)
  | real bytes => bytes
  | null => []

def text? : Cell → Option String
  | text s => some s
  | _ => none

def integer? : Cell → Option Int
  | integer n => some n
  | _ => none

end Cell

/-- A row of the table of keys. The engine keeps what it is given, so that neither the identity need be a text
nor the key a blob. -/
structure Row where
  identity : Cell
  key : Cell
deriving DecidableEq

namespace Row

def name? (r : Row) : Option String := r.identity.text?

def isOf (name : String) (r : Row) : Bool := r.name? == some name

def follows (r s : Row) : Bool :=
  match r.name?, s.name? with
  | some a, some b => b < a
  | _, _ => false

def place (r : Row) : List Row → List Row
  | [] => [r]
  | s :: rs => if s.follows r then r :: s :: rs else s :: place r rs

theorem mem_place {r s : Row} {rs : List Row} : s ∈ r.place rs ↔ s = r ∨ s ∈ rs := by
  induction rs with
  | nil => simp [place]
  | cons t rs ih =>
    simp only [place]
    split
    · exact List.mem_cons
    · simp only [List.mem_cons, ih, or_left_comm]

def Sorted (rs : List Row) : Prop := (rs.filterMap name?).Pairwise (· ≤ ·)

theorem Sorted.place {rs : List Row} (h : Sorted rs) (r : Row) : Sorted (r.place rs) := by
  unfold Sorted at h ⊢
  induction rs with
  | nil => cases hr : r.name? <;> simp [Row.place, hr]
  | cons s rs ih =>
    simp only [Row.place]
    split
    next hfollows =>
      cases hr : r.name? with
      | none => simpa [hr] using h
      | some a =>
        cases hs : s.name? with
        | none => simp [follows, hs] at hfollows
        | some b =>
          have hlt : a < b := by simpa [follows, hr, hs] using hfollows
          rw [List.filterMap_cons_some hr]
          rw [List.filterMap_cons_some hs] at h ⊢
          refine List.pairwise_cons.2 ⟨fun c hc ↦ ?_, h⟩
          rcases List.mem_cons.1 hc with rfl | hc
          · exact Std.le_of_lt hlt
          · exact String.le_trans (Std.le_of_lt hlt) ((List.pairwise_cons.1 h).1 c hc)
    next hfollows =>
      cases hs : s.name? with
      | none =>
        rw [List.filterMap_cons_none hs] at h ⊢
        exact ih h
      | some b =>
        rw [List.filterMap_cons_some hs] at h ⊢
        obtain ⟨hb, h⟩ := List.pairwise_cons.1 h
        refine List.pairwise_cons.2 ⟨fun c hc ↦ ?_, ih h⟩
        obtain ⟨t, ht, htc⟩ := List.mem_filterMap.1 hc
        rcases mem_place.1 ht with rfl | ht
        · simp only [follows, hs, htc, decide_eq_true_eq] at hfollows
          exact String.not_lt.1 hfollows
        · exact hb c (List.mem_filterMap.2 ⟨t, ht, htc⟩)

end Row

/-- The table of keys, with the rows that have names in the order of these; of two with one name the older stands
first. -/
structure KeyTable where
  rows : List Row
  sorted : Row.Sorted rows
deriving DecidableEq

namespace KeyTable

instance : EmptyCollection KeyTable := ⟨⟨[], .nil⟩⟩

instance : Inhabited KeyTable := ⟨∅⟩

def get? (t : KeyTable) (name : String) : Option Cell := (t.rows.find? (Row.isOf name)).map Row.key

def contains (t : KeyTable) (name : String) : Bool := (t.get? name).isSome

def add (t : KeyTable) (r : Row) : KeyTable := ⟨r.place t.rows, t.sorted.place r⟩

def insert (t : KeyTable) (name : String) (cell : Cell) : KeyTable := t.add ⟨.text name, cell⟩

def erase (t : KeyTable) (name : String) : KeyTable where
  rows := t.rows.filter fun r ↦ !r.isOf name
  sorted := t.sorted.sublist (List.filter_sublist.filterMap _)

def set (t : KeyTable) (name : String) (cell : Cell) : KeyTable where
  rows := t.rows.map fun r ↦ if r.isOf name then { r with key := cell } else r
  sorted := by
    have hname (r : Row) : (if r.isOf name then { r with key := cell } else r).name? = r.name? := by
      split <;> rfl
    have hsorted := t.sorted
    simp only [Row.Sorted, List.filterMap_map, Function.comp_def, hname] at hsorted ⊢
    exact hsorted

/-- The rows put in one after another, the oldest first. -/
def ofList (rows : List Row) : KeyTable := rows.foldl add ∅

end KeyTable

end Gatekeeper
