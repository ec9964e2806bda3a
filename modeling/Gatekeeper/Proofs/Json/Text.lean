import Gatekeeper.Json.Printer

namespace Gatekeeper.Json

def quoted (s : String) : List Char := '"' :: (s.toList.flatMap escapeChar ++ ['"'])

mutual

def text : Json → List Char
  | null => ['n', 'u', 'l', 'l']
  | bool true => ['t', 'r', 'u', 'e']
  | bool false => ['f', 'a', 'l', 's', 'e']
  | integer n => integerText n
  | double x => doubleText x
  | string s => quoted s
  | array [] => ['[', ']']
  | array (v :: vs) => '[' :: (text v ++ (itemsText vs ++ [']']))
  | object [] => ['\x7b', '\x7d']
  | object ((k, v) :: fs) =>
    '\x7b' :: (quoted k ++ (':' :: (text v ++ (fieldsText fs ++ ['\x7d']))))

def itemsText : List Json → List Char
  | [] => []
  | v :: vs => ',' :: (text v ++ itemsText vs)

def fieldsText : List (String × Json) → List Char
  | [] => []
  | (k, v) :: fs => ',' :: (quoted k ++ (':' :: (text v ++ fieldsText fs)))

end

theorem toList_append (out : String) (cs : List Char) : (append out cs).toList = out.toList ++ cs := by
  induction cs generalizing out with
  | nil => simp [append]
  | cons c cs ih =>
    change (append (out.push c) cs).toList = _
    simp [ih]

theorem toList_writeString (out s : String) : (writeString out s).toList = out.toList ++ quoted s := by
  have hfold (cs : List Char) (out : String) :
      (cs.foldl (fun out c ↦ append out (escapeChar c)) out).toList =
        out.toList ++ cs.flatMap escapeChar := by
    induction cs generalizing out with
    | nil => simp
    | cons c cs ih => simp [ih, toList_append]
  simp [writeString, hfold, quoted]

mutual

theorem toList_write (out : String) (v : Json) : (write out v).toList = out.toList ++ text v := by
  match v with
  | null | bool true | bool false | array [] | object [] => simp [write, text]
  | integer n => rw [write, text, toList_append]
  | double x => rw [write, text, toList_append]
  | string s => rw [write, text, toList_writeString]
  | array (v :: vs) => simp [write, text, toList_writeItems, toList_write]
  | object ((k, v) :: fs) => simp [write, text, toList_writeFields, toList_write, toList_writeString]

theorem toList_writeItems (out : String) (vs : List Json) :
    (writeItems out vs).toList = out.toList ++ itemsText vs := by
  match vs with
  | [] => simp [writeItems, itemsText]
  | v :: vs => simp [writeItems, itemsText, toList_writeItems, toList_write]

theorem toList_writeFields (out : String) (fs : List (String × Json)) :
    (writeFields out fs).toList = out.toList ++ fieldsText fs := by
  match fs with
  | [] => simp [writeFields, fieldsText]
  | (k, v) :: fs =>
    simp [writeFields, fieldsText, toList_writeFields, toList_write, toList_writeString]

end

theorem toList_render (v : Json) : v.render.toList = text v := by
  rw [render, toList_write]
  rfl

/-- Without control characters, and so without the end of a line. -/
def Plain (cs : List Char) : Prop := ∀ c ∈ cs, 0x20 ≤ c.toNat

@[simp] theorem plain_nil : Plain [] := nofun

@[simp] theorem plain_cons {c : Char} {cs : List Char} : Plain (c :: cs) ↔ 0x20 ≤ c.toNat ∧ Plain cs :=
  List.forall_mem_cons

@[simp] theorem plain_append {cs ds : List Char} : Plain (cs ++ ds) ↔ Plain cs ∧ Plain ds :=
  List.forall_mem_append

theorem Plain.subset {cs ds : List Char} (h : Plain ds) (hsub : cs ⊆ ds) : Plain cs :=
  fun c hc ↦ h c (hsub hc)

theorem plain_lowEscape (n : Nat) (h : n < 32) : Plain (escapeChar (Char.ofNat n)) := by
  have hall : ∀ n < 32, (escapeChar (Char.ofNat n)).all (fun c ↦ decide (0x20 ≤ c.toNat)) := by decide
  intro c hc
  exact of_decide_eq_true (List.all_eq_true.mp (hall n h) c hc)

theorem plain_escapeChar (c : Char) : Plain (escapeChar c) := by
  by_cases hlow : c.toNat < 32
  · have h := plain_lowEscape c.toNat hlow
    rwa [Char.ofNat_toNat] at h
  · unfold escapeChar
    split
    · simp
    · split
      · simp
      · simpa [hlow] using Nat.le_of_not_lt hlow

theorem plain_quoted (s : String) : Plain (quoted s) := by
  have hescaped : Plain (s.toList.flatMap escapeChar) := by
    intro c hc
    obtain ⟨d, -, hc⟩ := List.mem_flatMap.1 hc
    exact plain_escapeChar d c hc
  simp [quoted, hescaped]

theorem plain_toDigits (n : Nat) : Plain (Nat.toDigits 10 n) := by
  intro c hc
  have hdigit := Nat.isDigit_of_mem_toDigits (by decide) (by decide) hc
  have hzero : 0x30 ≤ c.toNat := by
    simp only [Char.isDigit, Bool.and_eq_true, decide_eq_true_eq] at hdigit
    exact UInt32.le_iff_toNat_le.1 hdigit.1
  omega

theorem plain_replicate (n : Nat) : Plain (List.replicate n '0') := by
  intro c hc
  rw [List.eq_of_mem_replicate hc]
  decide

theorem plain_integerText (n : Int) : Plain (integerText n) := by
  unfold integerText
  split
  · simp [plain_toDigits]
  · exact plain_toDigits _

theorem plain_shortest (x : Double) : Plain (Decimal.shortest x).digits := by
  have hdropped (ds : List Char) : Decimal.dropTrailingZeros ds ⊆ ds := by
    intro c hc
    have hc := (List.dropWhile_sublist _).subset (List.mem_reverse.1 hc)
    exact List.mem_reverse.1 hc
  exact (plain_toDigits _).subset (hdropped _)

theorem plain_doubleText (x : Double) : Plain (doubleText x) := by
  have hdigits := plain_shortest x
  have htake (n : Nat) : Plain ((Decimal.shortest x).digits.take n) := hdigits.subset (List.take_subset n _)
  have hdrop (n : Nat) : Plain ((Decimal.shortest x).digits.drop n) := hdigits.subset (List.drop_subset n _)
  unfold doubleText
  dsimp only
  repeat' split
  all_goals simp [-List.drop_one, hdigits, htake, hdrop, plain_toDigits, plain_replicate]

mutual

theorem plain_text (v : Json) : Plain (text v) := by
  match v with
  | null | bool true | bool false | array [] | object [] => simp [text]
  | integer n => rw [text]; exact plain_integerText n
  | double x => rw [text]; exact plain_doubleText x
  | string s => rw [text]; exact plain_quoted s
  | array (v :: vs) => simp [text, plain_text v, plain_itemsText vs]
  | object ((k, v) :: fs) => simp [text, plain_quoted, plain_text v, plain_fieldsText fs]

theorem plain_itemsText (vs : List Json) : Plain (itemsText vs) := by
  match vs with
  | [] => simp [itemsText]
  | v :: vs => simp [itemsText, plain_text v, plain_itemsText vs]

theorem plain_fieldsText (fs : List (String × Json)) : Plain (fieldsText fs) := by
  match fs with
  | [] => simp [fieldsText]
  | (k, v) :: fs => simp [fieldsText, plain_quoted, plain_text v, plain_fieldsText fs]

end

end Gatekeeper.Json
