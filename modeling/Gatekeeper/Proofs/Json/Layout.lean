import Gatekeeper.Json.Scalar
import Gatekeeper.Proofs.Json.Text

namespace Gatekeeper.Json

def Blank (cs : List Char) : Prop := ∀ c ∈ cs, isSpace c

theorem blank_nil : Blank [] := nofun

/-- The blanks of a layout: where a line begins that stands so many brackets deep, and behind a colon. -/
structure Layout where
  line : Nat → List Char
  gap : List Char
  blank_line : ∀ depth, Blank (line depth)
  blank_gap : Blank gap

namespace Layout

def compact : Layout where
  line _ := []
  gap := []
  blank_line _ := by simp [Blank]
  blank_gap := by simp [Blank]

def spread : Layout where
  line depth := '\n' :: List.replicate (2 * depth) ' '
  gap := [' ']
  blank_line depth := by simp [Blank, isSpace]
  blank_gap := by simp [Blank, isSpace]

end Layout

variable (l : Layout)

mutual

def laidOut (depth : Nat) : Json → List Char
  | array (v :: vs) =>
    '[' :: (l.line (depth + 1) ++ (laidOut (depth + 1) v ++
      (itemsLaidOut (depth + 1) vs ++ (l.line depth ++ [']']))))
  | object ((k, v) :: fs) =>
    '\x7b' :: (l.line (depth + 1) ++ (quoted k ++ (':' :: (l.gap ++ (laidOut (depth + 1) v ++
      (fieldsLaidOut (depth + 1) fs ++ (l.line depth ++ ['\x7d'])))))))
  | null => text null
  | bool b => text (bool b)
  | integer n => text (integer n)
  | double x => text (double x)
  | string s => text (string s)
  | array [] => text (array [])
  | object [] => text (object [])

def itemsLaidOut (depth : Nat) : List Json → List Char
  | [] => []
  | v :: vs => ',' :: (l.line depth ++ (laidOut depth v ++ itemsLaidOut depth vs))

def fieldsLaidOut (depth : Nat) : List (String × Json) → List Char
  | [] => []
  | (k, v) :: fs =>
    ',' :: (l.line depth ++ (quoted k ++ (':' :: (l.gap ++ (laidOut depth v ++ fieldsLaidOut depth fs)))))

end

mutual

theorem laidOut_compact (depth : Nat) (v : Json) : laidOut .compact depth v = text v := by
  match v with
  | null | bool _ | integer _ | double _ | string _ | array [] | object [] => simp only [laidOut]
  | array (v :: vs) =>
    rw [laidOut, text, laidOut_compact (depth + 1) v, itemsLaidOut_compact (depth + 1) vs]
    rfl
  | object ((k, v) :: fs) =>
    rw [laidOut, text, laidOut_compact (depth + 1) v, fieldsLaidOut_compact (depth + 1) fs]
    rfl

theorem itemsLaidOut_compact (depth : Nat) (vs : List Json) :
    itemsLaidOut .compact depth vs = itemsText vs := by
  match vs with
  | [] => rfl
  | v :: vs =>
    rw [itemsLaidOut, itemsText, laidOut_compact depth v, itemsLaidOut_compact depth vs]
    rfl

theorem fieldsLaidOut_compact (depth : Nat) (fs : List (String × Json)) :
    fieldsLaidOut .compact depth fs = fieldsText fs := by
  match fs with
  | [] => rfl
  | (k, v) :: fs =>
    rw [fieldsLaidOut, fieldsText, laidOut_compact depth v, fieldsLaidOut_compact depth fs]
    rfl

end

theorem toList_newline (out : String) (depth : Nat) :
    (newline out depth).toList = out.toList ++ Layout.spread.line depth := by
  simp [newline, toList_append, Layout.spread]

mutual

theorem toList_writePretty (depth : Nat) (out : String) (v : Json) :
    (writePretty depth out v).toList = out.toList ++ laidOut .spread depth v := by
  match v with
  | null | bool true | bool false | array [] | object [] => simp [writePretty, laidOut, text]
  | integer n => rw [writePretty, laidOut, text, toList_append]
  | double x => rw [writePretty, laidOut, text, toList_append]
  | string s => rw [writePretty, laidOut, text, toList_writeString]
  | array (v :: vs) =>
    simp [writePretty, laidOut, toList_newline, toList_writePretty (depth + 1) _ v,
      toList_writePrettyItems (depth + 1) _ vs]
  | object ((k, v) :: fs) =>
    simp [writePretty, laidOut, toList_newline, toList_writeString, toList_writePretty (depth + 1) _ v,
      toList_writePrettyFields (depth + 1) _ fs, Layout.spread]

theorem toList_writePrettyItems (depth : Nat) (out : String) (vs : List Json) :
    (writePrettyItems depth out vs).toList = out.toList ++ itemsLaidOut .spread depth vs := by
  match vs with
  | [] => simp [writePrettyItems, itemsLaidOut]
  | v :: vs =>
    simp [writePrettyItems, itemsLaidOut, toList_newline, toList_writePretty depth _ v,
      toList_writePrettyItems depth _ vs]

theorem toList_writePrettyFields (depth : Nat) (out : String) (fs : List (String × Json)) :
    (writePrettyFields depth out fs).toList = out.toList ++ fieldsLaidOut .spread depth fs := by
  match fs with
  | [] => simp [writePrettyFields, fieldsLaidOut]
  | (k, v) :: fs =>
    simp [writePrettyFields, fieldsLaidOut, toList_newline, toList_writeString,
      toList_writePretty depth _ v, toList_writePrettyFields depth _ fs, Layout.spread]

end

theorem toList_pretty (v : Json) : v.pretty.toList = laidOut .spread 0 v := by
  rw [pretty, toList_writePretty]
  rfl

end Gatekeeper.Json
