import Gatekeeper.Proofs.Json.Ignored
import Gatekeeper.Proofs.Results

namespace Gatekeeper.Json

variable {c : Char} {cs cs' rest : List Char} {v : Json} {first : Bool}

/-- A choice is one of the names, or an object with the name alone and null. -/
def chosen (names : List String) : Json → Except Fault Json
  | .string s => if names.contains s then .ok (.string s) else .error .mismatch
  | .object ((k, v) :: fs) =>
    if names.contains k then
      if v.isNull then if fs.isEmpty then .ok (.string k) else .error .malformed
      else .error .mismatch
    else .error .mismatch
  | _ => .error .malformed

/-- The fields of a record out of the fields of an object, one after another; `out` holds those before, in
reverse. -/
def gathered (field? : String → Option (String × (Json → Except Fault Json)))
    (complete : List String → Bool) :
    List (String × Json) → List (String × Json) → Except Fault (List (String × Json))
  | out, [] => if complete (out.map Prod.fst) then .ok out.reverse else .error .mismatch
  | out, (k, v) :: fs =>
    match field? k with
    | none => gathered field? complete out fs
    | some (name, take) =>
      if (out.map Prod.fst).contains name then .error .mismatch
      else
        match take v with
        | .error e => .error e
        | .ok w => gathered field? complete ((name, w) :: out) fs

mutual

/-- What a value becomes for a reader of a shape. -/
def shaped : Shape → Json → Except Fault Json
  | .any, v => .ok v.ordered
  | .table, .object fs => .ok (object fs).ordered
  | .list s, .array vs => (vs.mapM (shaped s)).map array
  | .optional s, v => if v.isNull then .ok .null else shaped s v
  | .choice names, v => chosen names v
  | .record fields, .object fs =>
    (gathered (shapedField? fields) (Shape.complete fields) [] fs).map object
  | .record fields, .array vs => (shapedSlots fields vs).map object
  | s, v => if fits s v then .ok v else .error .mismatch

def shapedField? : List (Field × Shape) → String → Option (String × (Json → Except Fault Json))
  | [], _ => none
  | (f, s) :: fields, name => if f.answersTo name then some (f.name, shaped s) else shapedField? fields name

def shapedSlots : List (Field × Shape) → List Json → Except Fault (List (String × Json))
  | [], [] => .ok []
  | [], _ :: _ => .error .malformed
  | (f, _) :: fields, [] => if f.required then .error .mismatch else shapedSlots fields []
  | (f, s) :: fields, v :: vs =>
    match shaped s v with
    | .error e => .error e
    | .ok w => (shapedSlots fields vs).map ((f.name, w) :: ·)

end

mutual

/-- The steps that a shape takes beyond those for the characters: one for an option, and one for each field
that may have been left out. -/
def slack : Shape → Nat
  | .optional s => slack s + 1
  | .list s => slack s
  | .record fields => slackFields fields
  | _ => 0

def slackFields : List (Field × Shape) → Nat
  | [] => 0
  | (_, s) :: fields => slack s + slackFields fields + 1

end

theorem shapedField?_eq (fields : List (Field × Shape)) (name : String) :
    shapedField? fields name = (Shape.find? fields name).map fun f ↦ (f.1.name, shaped f.2) := by
  induction fields with
  | nil => rw [shapedField?, Shape.find?, List.find?_nil, Option.map_none]
  | cons f fields ih =>
    rw [shapedField?, Shape.find?, List.find?_cons]
    by_cases h : f.1.answersTo name
    · simp [h]
    · simp only [h, Bool.false_eq_true, if_false]
      exact ih

theorem slack_le_slackFields {fields : List (Field × Shape)} {name : String} {f : Field × Shape}
    (h : Shape.find? fields name = some f) : slack f.2 ≤ slackFields fields := by
  induction fields with
  | nil => cases h
  | cons g fields ih =>
    rw [slackFields]
    rw [Shape.find?, List.find?_cons] at h
    split at h
    · cases h
      omega
    · have hle := ih h
      omega

def IsScalar : Json → Prop
  | array _ | object _ => False
  | _ => True

theorem StartsScalar.isScalar (h : StartsScalar c v) : v.IsScalar := by
  cases h with
  | number hc hv =>
    cases v with
    | array | object => exact hv.elim
    | _ => trivial
  | _ => trivial

theorem StartsScalar.eq_null_iff (h : StartsScalar c v) : v = .null ↔ c = 'n' := by
  cases h with
  | number hc hv =>
    constructor
    · rintro rfl
      exact hv.elim
    · rintro rfl
      exact absurd hc (by decide)
  | _ => simp

theorem StartsScalar.exists_string_iff (h : StartsScalar c v) : (∃ s, v = .string s) ↔ c = '"' := by
  cases h with
  | number hc hv =>
    constructor
    · rintro ⟨s, rfl⟩
      exact hv.elim
    · rintro rfl
      exact absurd hc (by decide)
  | _ => simp

theorem isNull_iff : v.isNull ↔ v = .null := by
  cases v <;> simp [isNull]

section

variable {fuel room : Nat} {s : Shape} {names : List String} {fs : List (String × Json)}

theorem readShape_congr (h : skipSpace cs = skipSpace cs') :
    readShape fuel room s cs = readShape fuel room s cs' := by
  cases fuel with
  | zero => simp only [readShape]
  | succ fuel => simp only [readShape, h]

theorem readShape_scalar (hcs : skipSpace cs = c :: cs') (hc : c ≠ '[' ∧ c ≠ '\x7b')
    (hread : readScalar c cs' = .ok (v, rest)) (hoptional : ∀ inner, s ≠ .optional inner)
    (hchoice : ∀ names, s ≠ .choice names) :
    readShape (fuel + 1) room s cs = (shaped s v).map (·, rest) := by
  have hscalar := (scalarRead hread).starts.isScalar
  cases s with
  | optional inner => exact absurd rfl (hoptional inner)
  | choice names => exact absurd rfl (hchoice names)
  | any =>
    simp only [readShape, hcs, if_neg hc.1, if_neg hc.2, hread, shaped]
    rw [(scalarRead hread).starts.ordered]
    rfl
  | _ =>
    simp only [readShape, hcs, if_neg hc.1, if_neg hc.2, hread]
    cases v with
    | array | object => exact hscalar.elim
    | _ =>
      simp only [shaped]
      split <;> rfl

theorem readShape_optional (h : Writes cs v rest) : readShape (fuel + 1) room (.optional s) cs =
    if v.isNull then .ok (.null, rest) else readShape fuel room s cs := by
  have hinner {c : Char} {cs' : List Char} (hcs : skipSpace cs = c :: cs') :
      readShape fuel room s (c :: cs') = readShape fuel room s cs :=
    readShape_congr ((skipSpace_of_skipSpace hcs).trans hcs.symm)
  cases h with
  | @scalar _ cs' _ c _ hcs hc hread =>
    have hnull := (scalarRead hread).starts.eq_null_iff
    by_cases hn : c = 'n'
    · obtain rfl := hnull.2 hn
      simp only [readShape, hcs, if_pos hn, hread]
      rfl
    · rw [if_neg (mt isNull_iff.1 (mt hnull.1 hn))]
      simp only [readShape, hcs, if_neg hn, hinner hcs]
  | array hcs => simp [readShape, hcs, hinner hcs, isNull]
  | object hcs => simp [readShape, hcs, hinner hcs, isNull]

theorem readChoiceObject_of_writes (h : WritesFields true cs fs rest) :
    readChoiceObject names cs = (chosen names (.object fs)).map (·, rest) := by
  cases h with
  | nil hcs => simp [readChoiceObject, hcs, chosen, Except.map]
  | @cons _ _ quoted named cs' mid _ k v fs hnext hname hcolon hv hfs =>
    cases hnext with
    | first hcs _ =>
      simp only [readChoiceObject, hcs, hname, readColon_eq_ok_iff.2 hcolon, chosen]
      by_cases hk : names.contains k
      · rw [if_pos hk, if_pos hk]
        cases hv with
        | scalar hcs' hc hread =>
          have hbracket := not_or.2 hc
          simp only [hcs', if_neg hbracket, hread]
          cases v with
          | null =>
            cases hfs with
            | nil hmid => simp [hmid, isNull, Except.map]
            | cons hnext =>
              cases hnext with
              | comma hmid => simp [hmid, isNull, Except.map]
          | _ => rfl
        | array hcs' => simp [hcs', isNull, Except.map]
        | object hcs' => simp [hcs', isNull, Except.map]
      · rw [if_neg hk, if_neg hk]
        rfl

theorem readString_of_readScalar {t : String} (h : readScalar '"' cs = .ok (.string t, rest)) :
    readString cs = .ok (t, rest) := by
  rw [readScalar, if_pos rfl] at h
  obtain ⟨r, hr, heq⟩ := map_eq_ok_iff.1 h
  cases heq
  exact hr

theorem readShape_choice (h : Writes cs v rest) (hdepth : v.depth ≤ room) :
    readShape (fuel + 1) room (.choice names) cs = (chosen names v).map (·, rest) := by
  cases h with
  | @scalar _ cs' _ c _ hcs hc hread =>
    have hstring := (scalarRead hread).starts.exists_string_iff
    have hscalar := (scalarRead hread).starts.isScalar
    simp only [readShape, hcs, if_neg hc.2]
    by_cases hquote : c = '"'
    · obtain ⟨t, rfl⟩ := hstring.2 hquote
      subst hquote
      simp only [if_true, readString_of_readScalar hread, chosen]
      split <;> rfl
    · rw [if_neg hquote]
      cases v with
      | string t => exact absurd (hstring.1 ⟨t, rfl⟩) hquote
      | array | object => exact hscalar.elim
      | _ => rfl
  | array hcs => simp [readShape, hcs, chosen, Except.map]
  | object hcs hfs =>
    have hroom : room ≠ 0 := Nat.ne_of_gt (Nat.zero_lt_of_lt hdepth)
    simp only [readShape, hcs, if_neg hroom, readChoiceObject_of_writes hfs]
    rfl

theorem closeArray_of_next (h : Next ']' first cs cs') : closeArray cs = .error .malformed := by
  cases h with
  | first hcs hc =>
    unfold closeArray
    rw [hcs]
    split
    next heq => cases heq
    next heq => exact absurd (List.cons.inj heq).1 hc
    · rfl
  | comma hcs => simp [closeArray, hcs]

end

mutual

theorem readShape_eq_shaped (fuel room : Nat) (s : Shape) {cs rest : List Char} {v : Json}
    (h : Writes cs v rest) (hdepth : v.depth ≤ room) (hfuel : cs.length + slack s ≤ rest.length + fuel) :
    readShape fuel room s cs = (shaped s v).map (·, rest) := by
  -- An option is read again with the shape in it, from the same text, so the induction is on the steps.
  have hlt := h.length_lt
  match fuel with
  | 0 => omega
  | fuel + 1 =>
    have hany := readShape_of_writes h (fuel + 1) room (by omega)
    rw [within_of_le hdepth] at hany
    match s with
    | .any => exact hany
    | .choice names => exact readShape_choice h hdepth
    | .optional s =>
      rw [readShape_optional h, shaped]
      split
      · rfl
      · exact readShape_eq_shaped fuel room s h hdepth (by simp only [slack] at hfuel; omega)
    | .list s =>
      cases h with
      | scalar hcs hc hread => exact readShape_scalar hcs hc hread nofun nofun
      | array hcs hvs =>
        have hlen := length_lt_of_skipSpace hcs
        obtain ⟨room, rfl⟩ := Nat.exists_eq_add_one_of_ne_zero (Nat.ne_of_gt (Nat.zero_lt_of_lt hdepth))
        have hitems := readItems_eq_shaped fuel room s hvs [] (Nat.le_of_succ_le_succ hdepth)
          (by simp only [slack] at hfuel; omega)
        simp [readShape, hcs, hitems, shaped, map_map]
      | object hcs => simp [readShape, hcs, shaped, fits, Except.map]
    | .record fields =>
      cases h with
      | scalar hcs hc hread => exact readShape_scalar hcs hc hread nofun nofun
      | array hcs hvs =>
        have hlen := length_lt_of_skipSpace hcs
        obtain ⟨room, rfl⟩ := Nat.exists_eq_add_one_of_ne_zero (Nat.ne_of_gt (Nat.zero_lt_of_lt hdepth))
        have hslots := readSlots_eq_shaped fuel room fields hvs [] (Nat.le_of_succ_le_succ hdepth)
          (by simp only [slack] at hfuel; omega)
        simp [readShape, hcs, hslots, shaped, map_map]
      | object hcs hfs =>
        have hlen := length_lt_of_skipSpace hcs
        obtain ⟨room, rfl⟩ := Nat.exists_eq_add_one_of_ne_zero (Nat.ne_of_gt (Nat.zero_lt_of_lt hdepth))
        have hrecord := readRecord_eq_gathered fuel room fields hfs [] (Nat.le_of_succ_le_succ hdepth)
          (by simp only [slack] at hfuel; omega)
        simp [readShape, hcs, hrecord, shaped, map_map]
    | .table =>
      cases h with
      | scalar hcs hc hread => exact readShape_scalar hcs hc hread nofun nofun
      | array hcs => simp [readShape, hcs, shaped, fits, Except.map]
      | object hcs =>
        simp only [readShape, hcs] at hany ⊢
        exact hany
    | .text | .flag | .natural =>
      cases h with
      | scalar hcs hc hread => exact readShape_scalar hcs hc hread nofun nofun
      | array hcs => simp [readShape, hcs, shaped, fits, natural?, Except.map]
      | object hcs => simp [readShape, hcs, shaped, fits, natural?, Except.map]

theorem readItems_eq_shaped (fuel room : Nat) (s : Shape) {first : Bool} {cs rest : List Char} {vs : List Json}
    (h : WritesItems first cs vs rest) (out : List Json) (hdepth : depthItems vs ≤ room)
    (hfuel : cs.length + slack s ≤ rest.length + fuel) :
    readItems fuel room s first out cs = (vs.mapM (shaped s)).map fun ws ↦ (array (out.reverse ++ ws), rest) := by
  have hlt := h.length_lt
  match fuel with
  | 0 => omega
  | fuel + 1 =>
    cases h with
    | nil hcs =>
      have hnext : nextItem first ']' cs = .ok none := nextItem_eq_none_iff.2 ⟨_, hcs⟩
      simp only [readItems, hnext, afterClosing_of_skipSpace hcs, List.mapM_nil]
      simp [Except.map, pure, Except.pure]
    | @cons _ _ _ mid _ v vs hnext hv hvs =>
      have hlen := hnext.length_le
      have hmid := hv.length_lt
      have hrest := hvs.length_lt
      obtain ⟨hdepth, hdepths⟩ := Nat.max_le.1 hdepth
      have hvalue := readShape_eq_shaped fuel room s hv hdepth (by omega)
      have hitems (w : Json) := readItems_eq_shaped fuel room s hvs (w :: out) hdepths (by omega)
      simp only [readItems, nextItem_eq_some_iff.2 hnext, hvalue, List.mapM_cons]
      cases hw : shaped s v with
      | error e => rfl
      | ok w =>
        simp only [Except.map, hitems]
        cases hws : vs.mapM (shaped s) with
        | error e => rfl
        | ok ws => simp [bind, Except.bind, pure, Except.pure]

theorem readRecord_eq_gathered (fuel room : Nat) (fields : List (Field × Shape)) {first : Bool}
    {cs rest : List Char} {fs : List (String × Json)} (h : WritesFields first cs fs rest)
    (out : List (String × Json)) (hdepth : depthFields fs ≤ room)
    (hfuel : cs.length + slackFields fields ≤ rest.length + fuel) :
    readRecord fuel room first fields out cs =
      (gathered (shapedField? fields) (Shape.complete fields) out fs).map fun ws ↦ (object ws, rest) := by
  have hlt := h.length_lt
  match fuel with
  | 0 => omega
  | fuel + 1 =>
    cases h with
    | nil hcs =>
      have hnext : nextName first cs = .ok none := nextName_eq_none_iff.2 ⟨_, hcs⟩
      simp only [readRecord, hnext, afterClosing_of_skipSpace hcs, gathered]
      split <;> rfl
    | @cons _ _ quoted named cs' mid _ k v fs hnext hname hcolon hv hfs =>
      have hlen := hnext.length_le
      have hnamed := length_lt_of_readString hname
      have hcs' := length_lt_of_skipSpace hcolon
      have hmid := hv.length_lt
      have hrest := hfs.length_lt
      rw [List.length_cons] at hlen
      obtain ⟨hdepth, hdepths⟩ := Nat.max_le.1 hdepth
      have hfields (out : List (String × Json)) :=
        readRecord_eq_gathered fuel room fields hfs out hdepths (by omega)
      simp only [readRecord, nextName_eq_some_iff.2 ⟨_, hnext, hname⟩, readColon_eq_ok_iff.2 hcolon, gathered,
        shapedField?_eq]
      cases hfind : Shape.find? fields k with
      | none => simp only [skipValue_of_writes hv, hfields, Option.map_none]
      | some f =>
        have hslack := slack_le_slackFields hfind
        have hvalue := readShape_eq_shaped fuel room f.2 hv hdepth (by omega)
        simp only [Option.map_some, hvalue]
        split
        · rfl
        · cases hw : shaped f.2 v with
          | error e => rfl
          | ok w => exact hfields _

theorem readSlots_eq_shaped (fuel room : Nat) (fields : List (Field × Shape)) {first : Bool}
    {cs rest : List Char} {vs : List Json} (h : WritesItems first cs vs rest) (out : List (String × Json))
    (hdepth : depthItems vs ≤ room) (hfuel : cs.length + slackFields fields ≤ rest.length + fuel) :
    readSlots fuel room first out fields cs =
      (shapedSlots fields vs).map fun ws ↦ (object (out.reverse ++ ws), rest) := by
  have hlt := h.length_lt
  match fuel with
  | 0 => omega
  | fuel + 1 =>
    match fields with
    | [] =>
      cases h with
      | nil hcs => simp [readSlots, closeArray, hcs, shapedSlots, Except.map]
      | cons hnext => simp [readSlots, closeArray_of_next hnext, shapedSlots, Except.map]
    | (f, s) :: fields =>
      rw [slackFields] at hfuel
      cases h with
      | nil hcs =>
        have hnext : nextItem first ']' cs = .ok none := nextItem_eq_none_iff.2 ⟨_, hcs⟩
        have hslots := readSlots_eq_shaped fuel room fields (.nil hcs : WritesItems first cs [] rest) out hdepth
          (by omega)
        simp only [readSlots, hnext, hslots, shapedSlots]
        split <;> rfl
      | @cons _ _ _ mid _ v vs hnext hv hvs =>
        have hlen := hnext.length_le
        have hmid := hv.length_lt
        have hrest := hvs.length_lt
        obtain ⟨hdepth, hdepths⟩ := Nat.max_le.1 hdepth
        have hvalue := readShape_eq_shaped fuel room s hv hdepth (by omega)
        have hslots (w : Json) := readSlots_eq_shaped fuel room fields hvs ((f.name, w) :: out) hdepths (by omega)
        simp only [readSlots, nextItem_eq_some_iff.2 hnext, hvalue, shapedSlots]
        cases hw : shaped s v with
        | error e => rfl
        | ok w =>
          simp only [Except.map, hslots]
          cases hws : shapedSlots fields vs with
          | error e => rfl
          | ok ws => simp

end

/-- A text that writes a value is read into what a reader of the shape makes of the value. -/
theorem readAll_eq_shaped {t : String} {s : Shape} (h : IsTextOf t v) (hdepth : v.depth ≤ maxDepth)
    (hslack : slack s ≤ 16) : readAll s t.toList = shaped s v := by
  obtain ⟨rest, hv, hrest⟩ := h
  have hread := readShape_eq_shaped (stepsFor t.toList) maxDepth s hv hdepth (by simp only [stepsFor]; omega)
  rw [readAll, hread]
  cases hw : shaped s v with
  | error e => rfl
  | ok w => simp [Except.map, hrest]

end Gatekeeper.Json
