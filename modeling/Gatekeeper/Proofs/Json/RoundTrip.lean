import Gatekeeper.Proofs.Json.Grammar
import Gatekeeper.Proofs.Json.Layout
import Gatekeeper.Proofs.Json.Scalars

namespace Gatekeeper.Json

variable {c closing : Char} {bs cs rest : List Char} {v : Json}

def Begins (c : Char) : Prop := isSpace c = false ∧ c ≠ ']' ∧ c ≠ '\x7d'

instance : Decidable (Begins c) := inferInstanceAs (Decidable (_ ∧ _))

theorem skipSpace_append (hbs : Blank bs) : skipSpace (bs ++ cs) = skipSpace cs :=
  List.dropWhile_append_of_pos hbs

theorem skipSpace_of_not_space (hbs : Blank bs) (h : isSpace c = false) : skipSpace (bs ++ c :: cs) = c :: cs := by
  rw [skipSpace_append hbs, skipSpace, List.dropWhile_cons_of_neg (by simp [h])]

theorem begins_integerText (h : isDigit c ∨ c = '-') : Begins c ∧ c ≠ '[' ∧ c ≠ '\x7b' := by
  have hne (d : Char) (hd : isDigit d = false) (hminus : d ≠ '-') : c ≠ d := by
    rintro rfl
    rcases h with h | h
    · rw [hd] at h
      cases h
    · exact hminus h
  have hspace : isSpace c = false := by
    simp [isSpace, hne ' ' rfl, hne '\t' rfl, hne '\n' rfl, hne '\r' rfl]
  exact ⟨⟨hspace, hne _ rfl (by decide), hne _ rfl (by decide)⟩, hne _ rfl (by decide),
    hne _ rfl (by decide)⟩

theorem laidOut_eq_cons (l : Layout) (level : Nat) (v : Json) (h : v.All IsExact) :
    ∃ c cs, laidOut l level v = c :: cs ∧ Begins c := by
  match v with
  | null | bool true | bool false | string _ | array [] | array (_ :: _) | object []
  | object ((_, _) :: _) => exact ⟨_, _, by rw [laidOut] <;> rfl, by decide⟩
  | integer n =>
    obtain ⟨c, cs, hcs, hc, -⟩ := readScalar_integerText h.1 h.2 Ends.nil
    exact ⟨c, cs, by rw [laidOut, text, hcs], (begins_integerText hc).1⟩
  | double _ => exact h.elim

theorem ends_closing (hbs : Blank bs) (hc : c = ']' ∨ c = '\x7d') : Ends (bs ++ c :: rest) := by
  cases bs with
  | nil => exact Ends.cons (.inr (.inr hc))
  | cons b bs => exact Ends.cons (.inl (hbs b List.mem_cons_self))

theorem ends_itemsLaidOut (l : Layout) (level : Nat) (vs : List Json) (hbs : Blank bs) (rest : List Char) :
    Ends (itemsLaidOut l level vs ++ (bs ++ ']' :: rest)) := by
  cases vs with
  | nil => exact ends_closing hbs (.inl rfl)
  | cons v vs => exact Ends.cons (.inr (.inl rfl))

theorem ends_fieldsLaidOut (l : Layout) (level : Nat) (fs : List (String × Json)) (hbs : Blank bs)
    (rest : List Char) : Ends (fieldsLaidOut l level fs ++ (bs ++ '\x7d' :: rest)) := by
  cases fs with
  | nil => exact ends_closing hbs (.inr rfl)
  | cons f fs => exact Ends.cons (.inr (.inl rfl))

theorem next_first (hbs : Blank bs) (h : Begins c) (hc : c ≠ closing) :
    Next closing true (bs ++ c :: cs) (c :: cs) := .first (skipSpace_of_not_space hbs h.1) hc

theorem next_comma (hbs : Blank bs) (h : Begins c) (hc : c ≠ closing) (hclosing : closing ≠ ',') :
    Next closing false (',' :: (bs ++ c :: cs)) (c :: cs) :=
  .comma rfl hclosing (skipSpace_of_not_space hbs h.1) hc

mutual

theorem writes_laidOut (l : Layout) (level : Nat) (v : Json) (rest : List Char) (hv : v.All IsExact)
    (hrest : Ends rest) {bs : List Char} (hbs : Blank bs) : Writes (bs ++ (laidOut l level v ++ rest)) v rest := by
  match v with
  | null | bool true | bool false =>
    rw [laidOut]
    exact .scalar (skipSpace_of_not_space hbs rfl) (by decide) rfl
  | integer n =>
    obtain ⟨c, cs, hcs, hc, hread⟩ := readScalar_integerText hv.1 hv.2 hrest
    obtain ⟨hbegins, hbracket⟩ := begins_integerText hc
    rw [laidOut, text, hcs]
    exact .scalar (skipSpace_of_not_space hbs hbegins.1) hbracket hread
  | double x => exact hv.elim
  | string s =>
    have hread : readScalar '"' (s.toList.flatMap escapeChar ++ ['"'] ++ rest) = .ok (string s, rest) := by
      rw [List.append_assoc, readScalar, if_pos rfl, List.singleton_append, readString_quoted]
      rfl
    rw [laidOut]
    exact .scalar (skipSpace_of_not_space hbs rfl) (by decide) hread
  | array [] =>
    rw [laidOut]
    exact .array (skipSpace_of_not_space hbs rfl) (.nil rfl)
  | array (v :: vs) =>
    obtain ⟨c, cs, hcs, hc⟩ := laidOut_eq_cons l (level + 1) v hv.2.1
    have hvalue := writes_laidOut l (level + 1) v _ hv.2.1
      (ends_itemsLaidOut l (level + 1) vs (l.blank_line level) rest) blank_nil
    have hitems := writes_itemsLaidOut l (level + 1) vs rest hv.2.2 (l.blank_line level)
    rw [hcs, List.nil_append, List.cons_append] at hvalue
    simp only [laidOut, hcs, List.cons_append, List.append_assoc, List.nil_append]
    exact .array (skipSpace_of_not_space hbs rfl)
      (.cons (next_first (l.blank_line _) hc hc.2.1) hvalue hitems)
  | object [] =>
    rw [laidOut]
    exact .object (skipSpace_of_not_space hbs rfl) (.nil rfl)
  | object ((k, v) :: fs) =>
    have hvalue := writes_laidOut l (level + 1) v _ hv.2.1
      (ends_fieldsLaidOut l (level + 1) fs (l.blank_line level) rest) l.blank_gap
    have hfields := writes_fieldsLaidOut l (level + 1) fs rest hv.2.2 (l.blank_line level)
    simp only [laidOut, quoted, List.cons_append, List.append_assoc, List.nil_append]
    exact .object (skipSpace_of_not_space hbs rfl)
      (.cons (next_first (l.blank_line _) (by decide) (by decide)) (readString_quoted k _) rfl hvalue hfields)

theorem writes_itemsLaidOut (l : Layout) (level : Nat) (vs : List Json) (rest : List Char)
    (hvs : AllItems IsExact vs) {bs : List Char} (hbs : Blank bs) :
    WritesItems false (itemsLaidOut l level vs ++ (bs ++ ']' :: rest)) vs rest := by
  match vs with
  | [] =>
    rw [itemsLaidOut, List.nil_append]
    exact .nil (skipSpace_of_not_space hbs rfl)
  | v :: vs =>
    obtain ⟨c, cs, hcs, hc⟩ := laidOut_eq_cons l level v hvs.1
    have hvalue := writes_laidOut l level v _ hvs.1 (ends_itemsLaidOut l level vs hbs rest) blank_nil
    rw [hcs, List.nil_append, List.cons_append] at hvalue
    simp only [itemsLaidOut, hcs, List.cons_append, List.append_assoc]
    exact .cons (next_comma (l.blank_line _) hc hc.2.1 (by decide)) hvalue
      (writes_itemsLaidOut l level vs rest hvs.2 hbs)

theorem writes_fieldsLaidOut (l : Layout) (level : Nat) (fs : List (String × Json)) (rest : List Char)
    (hfs : AllFields IsExact fs) {bs : List Char} (hbs : Blank bs) :
    WritesFields false (fieldsLaidOut l level fs ++ (bs ++ '\x7d' :: rest)) fs rest := by
  match fs with
  | [] =>
    rw [fieldsLaidOut, List.nil_append]
    exact .nil (skipSpace_of_not_space hbs rfl)
  | (k, v) :: fs =>
    have hvalue := writes_laidOut l level v _ hfs.1 (ends_fieldsLaidOut l level fs hbs rest) l.blank_gap
    simp only [fieldsLaidOut, quoted, List.cons_append, List.append_assoc, List.nil_append]
    exact .cons (next_comma (l.blank_line _) (by decide) (by decide) (by decide)) (readString_quoted k _) rfl
      hvalue (writes_fieldsLaidOut l level fs rest hfs.2 hbs)

end

theorem isTextOf_laidOut (l : Layout) {s : String} (hs : s.toList = laidOut l 0 v ++ bs) (hexact : v.All IsExact)
    (hbs : Blank bs) : IsTextOf s v := by
  have hends : Ends bs := by
    cases bs with
    | nil => exact Ends.nil
    | cons b bs => exact Ends.cons (.inl (hbs b List.mem_cons_self))
  refine ⟨bs, ?_, ?_⟩
  · rw [hs]
    exact writes_laidOut l 0 v bs hexact hends blank_nil
  · rw [← List.append_nil bs, skipSpace_append hbs]
    rfl

theorem isTextOf_render (hexact : v.All IsExact) : IsTextOf v.render v := by
  refine isTextOf_laidOut .compact ?_ hexact blank_nil
  rw [toList_render, laidOut_compact, List.append_nil]

theorem isTextOf_pretty (hexact : v.All IsExact) : IsTextOf (v.pretty ++ "\n") v := by
  refine isTextOf_laidOut .spread ?_ hexact (show Blank ['\n'] by simp [Blank, isSpace])
  rw [String.toList_append, toList_pretty]
  rfl

theorem parse_render_eq (v : Json) (hexact : v.All IsExact) :
    parse v.render = within v.depth maxDepth v.ordered := (isTextOf_render hexact).parse

theorem parse_render (v : Json) (hexact : v.All IsExact) (hdepth : v.depth ≤ maxDepth) :
    parse v.render = .ok v.ordered := (parse_render_eq v hexact).trans (within_of_le hdepth)

theorem parseBytes_renderBytes_eq (v : Json) (hexact : v.All IsExact) :
    parseBytes v.renderBytes = within v.depth maxDepth v.ordered := by
  rw [parseBytes, renderBytes, Bytes.toString?_ofString]
  exact parse_render_eq v hexact

theorem parseBytes_renderBytes (v : Json) (hexact : v.All IsExact) (hdepth : v.depth ≤ maxDepth) :
    parseBytes v.renderBytes = .ok v.ordered :=
  (parseBytes_renderBytes_eq v hexact).trans (within_of_le hdepth)

theorem parse_pretty_eq (v : Json) (hexact : v.All IsExact) :
    parse (v.pretty ++ "\n") = within v.depth maxDepth v.ordered := (isTextOf_pretty hexact).parse

/-- What comes back as it was when its text is read: numbers are integers of 64 bits, fields are in order
and brackets not too deep. -/
structure Portable (v : Json) : Prop where
  exact : v.All IsExact
  ordered : v.All IsOrdered
  shallow : v.depth ≤ maxDepth

namespace Portable

theorem parseBytes_renderBytes (h : v.Portable) : parseBytes v.renderBytes = .ok v := by
  rw [Json.parseBytes_renderBytes v h.exact h.shallow, ordered_eq_self v h.ordered]

theorem parse_pretty (h : v.Portable) : parse (v.pretty ++ "\n") = .ok v := by
  rw [parse_pretty_eq v h.exact, within_of_le h.shallow, ordered_eq_self v h.ordered]

theorem field? {name : String} {w : Json} (h : v.Portable) (hw : v.field? name = some w) : w.Portable := by
  have hdepth := depth_lt_of_field? hw
  exact ⟨h.exact.field? hw, h.ordered.field? hw, Nat.le_trans (Nat.le_of_lt hdepth) h.shallow⟩

end Portable

end Gatekeeper.Json
