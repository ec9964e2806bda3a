import Gatekeeper.Json.Reader
import Gatekeeper.Proofs.Json.Order
import Gatekeeper.Proofs.Json.Passing

namespace Gatekeeper.Json

variable {α : Type} {c closing : Char} {cs cs' mid rest : List Char} {v : Json} {first : Bool}

/-- From a text on to the next item or name, behind a comma unless it is the first. -/
inductive Next (closing : Char) : Bool → List Char → List Char → Prop
  | first {cs rest : List Char} {c : Char} (hcs : skipSpace cs = c :: rest) (hc : c ≠ closing) :
      Next closing true cs (c :: rest)
  | comma {cs mid rest : List Char} {c : Char} (hcs : skipSpace cs = ',' :: mid) (hclosing : closing ≠ ',')
      (hmid : skipSpace mid = c :: rest) (hc : c ≠ closing) : Next closing false cs (c :: rest)

mutual

/-- What a text writes in front of the rest. A value is taken as it stands in the text, with the
fields of its objects in the order in which they are written, and with those whose name is written
twice. -/
inductive Writes : List Char → Json → List Char → Prop
  | scalar {cs cs' rest : List Char} {c : Char} {v : Json} (hcs : skipSpace cs = c :: cs')
      (hc : c ≠ '[' ∧ c ≠ '\x7b') (hread : readScalar c cs' = .ok (v, rest)) : Writes cs v rest
  | array {cs cs' rest : List Char} {vs : List Json} (hcs : skipSpace cs = '[' :: cs')
      (hvs : WritesItems true cs' vs rest) : Writes cs (.array vs) rest
  | object {cs cs' rest : List Char} {fs : List (String × Json)} (hcs : skipSpace cs = '\x7b' :: cs')
      (hfs : WritesFields true cs' fs rest) : Writes cs (.object fs) rest

inductive WritesItems : Bool → List Char → List Json → List Char → Prop
  | nil {first : Bool} {cs rest : List Char} (hcs : skipSpace cs = ']' :: rest) :
      WritesItems first cs [] rest
  | cons {first : Bool} {cs cs' mid rest : List Char} {v : Json} {vs : List Json}
      (hnext : Next ']' first cs cs') (hv : Writes cs' v mid) (hvs : WritesItems false mid vs rest) :
      WritesItems first cs (v :: vs) rest

inductive WritesFields : Bool → List Char → List (String × Json) → List Char → Prop
  | nil {first : Bool} {cs rest : List Char} (hcs : skipSpace cs = '\x7d' :: rest) :
      WritesFields first cs [] rest
  | cons {first : Bool} {cs quoted named cs' mid rest : List Char} {k : String} {v : Json}
      {fs : List (String × Json)} (hnext : Next '\x7d' first cs ('"' :: quoted))
      (hname : readString quoted = .ok (k, named)) (hcolon : skipSpace named = ':' :: cs')
      (hv : Writes cs' v mid) (hfs : WritesFields false mid fs rest) :
      WritesFields first cs ((k, v) :: fs) rest

end

theorem length_lt_of_skipSpace (h : skipSpace cs = c :: rest) : rest.length < cs.length := by
  have hle : (skipSpace cs).length ≤ cs.length := (List.dropWhile_suffix _).length_le
  rw [h] at hle
  exact hle

theorem Next.length_le (h : Next closing first cs cs') : cs'.length ≤ cs.length := by
  cases h with
  | first hcs hc => exact length_lt_of_skipSpace hcs
  | comma hcs hclosing hmid hc =>
    have hcomma := length_lt_of_skipSpace hcs
    have hitem := length_lt_of_skipSpace hmid
    simp only [List.length_cons]
    omega

mutual

theorem Writes.length_lt {cs rest : List Char} {v : Json} (h : Writes cs v rest) :
    rest.length < cs.length := by
  match h with
  | .scalar hcs _ hread => exact Nat.lt_of_le_of_lt (scalarRead hread).length_le (length_lt_of_skipSpace hcs)
  | .array hcs hvs => exact Nat.lt_trans hvs.length_lt (length_lt_of_skipSpace hcs)
  | .object hcs hfs => exact Nat.lt_trans hfs.length_lt (length_lt_of_skipSpace hcs)

theorem WritesItems.length_lt {first : Bool} {cs rest : List Char} {vs : List Json}
    (h : WritesItems first cs vs rest) : rest.length < cs.length := by
  match h with
  | .nil hcs => exact length_lt_of_skipSpace hcs
  | .cons hnext hv hvs =>
    have hitem := hnext.length_le
    have hmid := hv.length_lt
    have hrest := hvs.length_lt
    omega

theorem WritesFields.length_lt {first : Bool} {cs rest : List Char} {fs : List (String × Json)}
    (h : WritesFields first cs fs rest) : rest.length < cs.length := by
  match h with
  | .nil hcs => exact length_lt_of_skipSpace hcs
  | .cons hnext hname hcolon hv hfs =>
    have hquoted := hnext.length_le
    have hnamed := length_lt_of_readString hname
    have hvalue := length_lt_of_skipSpace hcolon
    have hmid := hv.length_lt
    have hrest := hfs.length_lt
    simp only [List.length_cons] at hquoted
    omega

end

theorem nextItem_eq_none_iff :
    nextItem first closing cs = .ok none ↔ ∃ rest, skipSpace cs = closing :: rest := by
  constructor
  · intro h
    unfold nextItem at h
    split at h
    · cases h
    next c rest hcs =>
      split at h
      next hc => exact ⟨rest, hc ▸ hcs⟩
      · split at h
        · cases h
        · split at h
          · split at h
            · cases h
            · split at h <;> cases h
          · cases h
  · rintro ⟨rest, hcs⟩
    simp [nextItem, hcs]

theorem nextItem_eq_some_iff :
    nextItem first closing cs = .ok (some cs') ↔ Next closing first cs cs' := by
  constructor
  · intro h
    unfold nextItem at h
    split at h
    · cases h
    next c rest hcs =>
      split at h
      · cases h
      next hc =>
        split at h
        next hfirst =>
          cases h
          rw [hfirst]
          exact .first hcs hc
        next hfirst =>
          split at h
          next hcomma =>
            split at h
            · cases h
            next d more hmid =>
              split at h
              · cases h
              next hd =>
                cases h
                rw [Bool.not_eq_true] at hfirst
                rw [hfirst]
                rw [hcomma] at hcs hc
                exact .comma hcs (Ne.symm hc) hmid hd
          · cases h
  · intro h
    cases h with
    | first hcs hc => simp [nextItem, hcs, hc]
    | comma hcs hclosing hmid hc => simp [nextItem, hcs, hclosing.symm, hmid, hc]

theorem afterClosing_of_skipSpace (h : skipSpace cs = c :: rest) : afterClosing cs = rest := by
  rw [afterClosing, h]
  rfl

theorem nextName_eq_none_iff : nextName first cs = .ok none ↔ ∃ rest, skipSpace cs = '\x7d' :: rest := by
  have hitem : nextItem first '\x7d' cs = .ok none ↔ _ := nextItem_eq_none_iff
  rw [← hitem, nextName]
  split
  next h => simp [h]
  next h => simp [h]
  next quoted h =>
    cases hname : readString quoted <;> simp [h, Except.map]
  next h => simp [h]

theorem nextName_eq_some_iff {k : String} : nextName first cs = .ok (some (k, rest)) ↔
    ∃ quoted, Next '\x7d' first cs ('"' :: quoted) ∧ readString quoted = .ok (k, rest) := by
  simp only [← nextItem_eq_some_iff]
  rw [nextName]
  split
  next h => simp [h]
  next h => simp [h]
  next quoted h =>
    cases hname : readString quoted <;> simp [h, hname, Except.map]
  next hquote h =>
    simp only [h, Except.ok.injEq, Option.some.injEq, reduceCtorEq, false_iff, not_exists, not_and]
    rintro quoted rfl
    exact absurd rfl (hquote quoted)

theorem readColon_eq_ok_iff : readColon cs = .ok rest ↔ skipSpace cs = ':' :: rest := by
  unfold readColon
  split
  next h => simp [h]
  next h => simp [h]
  next hnil hcolon =>
    constructor
    · exact nofun
    · intro h
      exact (hcolon _ h).elim

def within (depth room : Nat) (a : α) : Except Fault α :=
  if depth ≤ room then .ok a else .error .malformed

theorem within_of_le {depth room : Nat} {a : α} (h : depth ≤ room) : within depth room a = .ok a := if_pos h

theorem within_max {depth depth' room : Nat} {a : α} : within (max depth depth') room a =
    if depth ≤ room then within depth' room a else .error .malformed := by
  have hmax : max depth depth' ≤ room ↔ depth ≤ room ∧ depth' ≤ room := Nat.max_le
  by_cases h : depth ≤ room <;> simp only [within, hmax, h, true_and, false_and, if_true, if_false]

theorem within_succ {depth room : Nat} {a : α} : within (depth + 1) (room + 1) a = within depth room a := by
  simp [within]

theorem within_eq_ok_iff {depth room : Nat} {a b : α} : within depth room a = .ok b ↔ depth ≤ room ∧ b = a := by
  by_cases h : depth ≤ room <;> simp [within, h, eq_comm]

theorem IsNumber.ordered (h : v.IsNumber) : v.ordered = v := by
  cases v with
  | integer | double => rfl
  | _ => exact h.elim

theorem IsNumber.depth (h : v.IsNumber) : v.depth = 0 := by
  cases v with
  | integer | double => rfl
  | _ => exact h.elim

theorem StartsScalar.ordered (h : StartsScalar c v) : v.ordered = v := by
  cases h with
  | number hc hv => exact hv.ordered
  | _ => rfl

theorem StartsScalar.depth (h : StartsScalar c v) : v.depth = 0 := by
  cases h with
  | number hc hv => exact hv.depth
  | _ => rfl

mutual

/-- Steps are spent on nesting and on the items before, and each of these has a character to pay with. -/
theorem readShape_of_writes {cs rest : List Char} {v : Json} (h : Writes cs v rest) (fuel room : Nat)
    (hfuel : cs.length ≤ rest.length + fuel) :
    readShape fuel room .any cs = within v.depth room (v.ordered, rest) := by
  have hlt := h.length_lt
  obtain ⟨fuel, rfl⟩ := Nat.exists_eq_add_one_of_ne_zero (show fuel ≠ 0 by omega)
  match h with
  | .scalar hcs hc hread =>
    have hstarts := (scalarRead hread).starts
    rw [hstarts.depth, hstarts.ordered, within_of_le (Nat.zero_le room)]
    simp only [readShape, hcs, if_neg hc.1, if_neg hc.2, hread]
    rfl
  | .array hcs hvs =>
    have hlen := length_lt_of_skipSpace hcs
    have hitems (room : Nat) := readItems_of_writes hvs [] fuel room (by omega)
    rw [List.reverse_nil, List.nil_append] at hitems
    cases room with
    | zero => simp [readShape, hcs, within, depth]
    | succ room => simp [readShape, hcs, hitems, depth, ordered, within_succ]
  | .object hcs hfs =>
    have hlen := length_lt_of_skipSpace hcs
    have hfields (room : Nat) := readFields_of_writes hfs [] fuel room (by omega)
    rw [List.reverse_nil, List.nil_append] at hfields
    cases room with
    | zero => simp [readShape, hcs, within, depth]
    | succ room => simp [readShape, hcs, hfields, depth, ordered, within_succ]

theorem readItems_of_writes {first : Bool} {cs rest : List Char} {vs : List Json}
    (h : WritesItems first cs vs rest) (out : List Json) (fuel room : Nat)
    (hfuel : cs.length ≤ rest.length + fuel) :
    readItems fuel room .any first out cs =
      within (depthItems vs) room (array (out.reverse ++ orderedItems vs), rest) := by
  have hlt := h.length_lt
  obtain ⟨fuel, rfl⟩ := Nat.exists_eq_add_one_of_ne_zero (show fuel ≠ 0 by omega)
  match h with
  | .nil hcs =>
    have hnext : nextItem first ']' cs = .ok none := nextItem_eq_none_iff.2 ⟨_, hcs⟩
    simp only [readItems, hnext, afterClosing_of_skipSpace hcs, orderedItems, List.append_nil]
    rfl
  | .cons (v := v) hnext hv hvs =>
    have hlen := hnext.length_le
    have hmid := hv.length_lt
    have hrest := hvs.length_lt
    have hvalue := readShape_of_writes hv fuel room (by omega)
    have hitems := readItems_of_writes hvs (v.ordered :: out) fuel room (by omega)
    rw [List.reverse_cons, List.append_assoc] at hitems
    rw [depthItems, within_max, orderedItems, ← List.singleton_append, ← hitems]
    simp only [readItems, nextItem_eq_some_iff.2 hnext, hvalue]
    by_cases hdepth : v.depth ≤ room <;> simp [within, hdepth]

theorem readFields_of_writes {first : Bool} {cs rest : List Char} {fs : List (String × Json)}
    (h : WritesFields first cs fs rest) (out : List (String × Json)) (fuel room : Nat)
    (hfuel : cs.length ≤ rest.length + fuel) :
    readFields fuel room first out cs =
      within (depthFields fs) room (ofFields (out.reverse ++ orderedFields fs), rest) := by
  have hlt := h.length_lt
  obtain ⟨fuel, rfl⟩ := Nat.exists_eq_add_one_of_ne_zero (show fuel ≠ 0 by omega)
  match h with
  | .nil hcs =>
    have hnext : nextName first cs = .ok none := nextName_eq_none_iff.2 ⟨_, hcs⟩
    simp only [readFields, hnext, afterClosing_of_skipSpace hcs, orderedFields, List.append_nil]
    rfl
  | .cons (k := k) (v := v) hnext hname hcolon hv hfs =>
    have hlen := hnext.length_le
    have hnamed := length_lt_of_readString hname
    have hcs' := length_lt_of_skipSpace hcolon
    have hmid := hv.length_lt
    have hrest := hfs.length_lt
    rw [List.length_cons] at hlen
    have hvalue := readShape_of_writes hv fuel room (by omega)
    have hfields := readFields_of_writes hfs ((k, v.ordered) :: out) fuel room (by omega)
    rw [List.reverse_cons, List.append_assoc] at hfields
    rw [depthFields, within_max, orderedFields, ← List.singleton_append, ← hfields]
    simp only [readFields, nextName_eq_some_iff.2 ⟨_, hnext, hname⟩, readColon_eq_ok_iff.2 hcolon, hvalue]
    by_cases hdepth : v.depth ≤ room <;> simp [within, hdepth]

end

mutual

theorem exists_writes {v : Json} {rest : List Char} (fuel room : Nat) (cs : List Char)
    (h : readShape fuel room .any cs = .ok (v, rest)) : ∃ w, Writes cs w rest := by
  match fuel with
  | 0 => simp [readShape] at h
  | fuel + 1 =>
    simp only [readShape] at h
    split at h
    · cases h
    next c cs' hcs =>
      split at h
      next hsquare =>
        split at h
        · cases h
        · obtain ⟨vs, hvs⟩ := exists_writesItems fuel _ true [] _ h
          exact ⟨_, .array (hsquare ▸ hcs) hvs⟩
      next hsquare =>
        split at h
        next hcurly =>
          split at h
          · cases h
          · obtain ⟨fs, hfs⟩ := exists_writesFields fuel _ true [] _ h
            exact ⟨_, .object (hcurly ▸ hcs) hfs⟩
        next hcurly =>
          split at h
          · cases h
          next hread =>
            cases h
            exact ⟨_, .scalar hcs ⟨hsquare, hcurly⟩ hread⟩

theorem exists_writesItems {v : Json} {rest : List Char} (fuel room : Nat) (first : Bool) (out : List Json)
    (cs : List Char) (h : readItems fuel room .any first out cs = .ok (v, rest)) :
    ∃ vs, WritesItems first cs vs rest := by
  match fuel with
  | 0 => simp [readItems] at h
  | fuel + 1 =>
    simp only [readItems] at h
    split at h
    · cases h
    next hnext =>
      obtain ⟨_, hcs⟩ := nextItem_eq_none_iff.1 hnext
      cases h
      exact ⟨[], .nil (afterClosing_of_skipSpace hcs ▸ hcs)⟩
    next hnext =>
      split at h
      · cases h
      next hread =>
        obtain ⟨w, hw⟩ := exists_writes fuel room _ hread
        obtain ⟨ws, hws⟩ := exists_writesItems fuel room false _ _ h
        exact ⟨w :: ws, .cons (nextItem_eq_some_iff.1 hnext) hw hws⟩

theorem exists_writesFields {v : Json} {rest : List Char} (fuel room : Nat) (first : Bool)
    (out : List (String × Json)) (cs : List Char) (h : readFields fuel room first out cs = .ok (v, rest)) :
    ∃ fs, WritesFields first cs fs rest := by
  match fuel with
  | 0 => simp [readFields] at h
  | fuel + 1 =>
    simp only [readFields] at h
    split at h
    · cases h
    next hnext =>
      obtain ⟨_, hcs⟩ := nextName_eq_none_iff.1 hnext
      cases h
      exact ⟨[], .nil (afterClosing_of_skipSpace hcs ▸ hcs)⟩
    next hnext =>
      obtain ⟨quoted, hquoted, hname⟩ := nextName_eq_some_iff.1 hnext
      split at h
      · cases h
      next hcolon =>
        split at h
        · cases h
        next hread =>
          obtain ⟨w, hw⟩ := exists_writes fuel room _ hread
          obtain ⟨ws, hws⟩ := exists_writesFields fuel room false _ _ h
          exact ⟨_, .cons hquoted hname (readColon_eq_ok_iff.1 hcolon) hw hws⟩

end

/-- A whole text writes a value, but for blanks behind it. -/
def IsTextOf (s : String) (v : Json) : Prop := ∃ rest, Writes s.toList v rest ∧ skipSpace rest = []

/-- Reading gives the value in order, unless its brackets are too deep. -/
theorem IsTextOf.parse {s : String} (h : IsTextOf s v) : parse s = within v.depth maxDepth v.ordered := by
  obtain ⟨rest, hv, hrest⟩ := h
  have hread := readShape_of_writes hv (stepsFor s.toList) maxDepth (by simp only [stepsFor]; omega)
  rw [Json.parse, readAll, hread]
  by_cases hdepth : v.depth ≤ maxDepth <;> simp [within, hdepth, hrest]

theorem exists_isTextOf {s : String} {d : Json} (h : parse s = .ok d) : ∃ v, IsTextOf s v := by
  simp only [parse, readAll] at h
  split at h
  · cases h
  next d' rest hd =>
    split at h
    next hrest =>
      obtain ⟨v, hv⟩ := exists_writes _ _ _ hd
      exact ⟨v, rest, hv, List.isEmpty_iff.1 hrest⟩
    · cases h

theorem parse_eq_ok_iff {s : String} {d : Json} :
    parse s = .ok d ↔ ∃ v, IsTextOf s v ∧ v.depth ≤ maxDepth ∧ d = v.ordered := by
  constructor
  · intro h
    obtain ⟨v, hv⟩ := exists_isTextOf h
    rw [hv.parse] at h
    exact ⟨v, hv, within_eq_ok_iff.1 h⟩
  · rintro ⟨v, hv, hdepth, rfl⟩
    rw [hv.parse, within_of_le hdepth]

end Gatekeeper.Json
