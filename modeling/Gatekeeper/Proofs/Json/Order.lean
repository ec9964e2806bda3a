import Gatekeeper.Json.Value

namespace Gatekeeper.Json

mutual

def All (P : Json → Prop) : Json → Prop
  | array vs => P (array vs) ∧ AllItems P vs
  | object fs => P (object fs) ∧ AllFields P fs
  | v => P v

def AllItems (P : Json → Prop) : List Json → Prop
  | [] => True
  | v :: vs => All P v ∧ AllItems P vs

def AllFields (P : Json → Prop) : List (String × Json) → Prop
  | [] => True
  | (_, v) :: fs => All P v ∧ AllFields P fs

end

/-- Whether a value, if it is a number, is an integer of 64 bits. -/
def IsExact : Json → Prop
  | integer n => leastInteger ≤ n ∧ n ≤ greatestInteger
  | double _ => False
  | _ => True

def IsOrdered : Json → Prop
  | object fs => fs.Pairwise fun a b ↦ a.1 < b.1
  | _ => True

theorem isOrdered_object {fs : List (String × Json)} :
    IsOrdered (object fs) ↔ (fs.map Prod.fst).Pairwise (· < ·) := List.pairwise_map.symm

mutual

theorem All.imp {P Q : Json → Prop} (hPQ : ∀ v, P v → Q v) {v : Json} (h : v.All P) : v.All Q := by
  match v with
  | null | bool _ | integer _ | double _ | string _ => exact hPQ _ h
  | array vs => exact ⟨hPQ _ h.1, AllItems.imp hPQ h.2⟩
  | object fs => exact ⟨hPQ _ h.1, AllFields.imp hPQ h.2⟩

theorem AllItems.imp {P Q : Json → Prop} (hPQ : ∀ v, P v → Q v) {vs : List Json} (h : AllItems P vs) :
    AllItems Q vs := by
  match vs with
  | [] => trivial
  | v :: vs => exact ⟨All.imp hPQ h.1, AllItems.imp hPQ h.2⟩

theorem AllFields.imp {P Q : Json → Prop} (hPQ : ∀ v, P v → Q v) {fs : List (String × Json)}
    (h : AllFields P fs) : AllFields Q fs := by
  match fs with
  | [] => trivial
  | (_, v) :: fs => exact ⟨All.imp hPQ h.1, AllFields.imp hPQ h.2⟩

end

def HasDistinctNames : Json → Prop
  | object fs => (fs.map Prod.fst).Nodup
  | _ => True

theorem IsOrdered.hasDistinctNames {v : Json} (h : v.IsOrdered) : v.HasDistinctNames := by
  cases v with
  | object fs =>
    change (fs.map Prod.fst).Nodup
    refine (isOrdered_object.1 h).imp fun {a b} hlt heq ↦ ?_
    rw [heq] at hlt
    exact String.lt_irrefl b hlt
  | _ => trivial

mutual

def depth : Json → Nat
  | array vs => depthItems vs + 1
  | object fs => depthFields fs + 1
  | _ => 0

def depthItems : List Json → Nat
  | [] => 0
  | v :: vs => max (depth v) (depthItems vs)

def depthFields : List (String × Json) → Nat
  | [] => 0
  | (_, v) :: fs => max (depth v) (depthFields fs)

end

mutual

/-- The value with the fields of every object in order, the last only of those with one name. -/
def ordered : Json → Json
  | array vs => array (orderedItems vs)
  | object fs => ofFields (orderedFields fs)
  | v => v

def orderedItems : List Json → List Json
  | [] => []
  | v :: vs => ordered v :: orderedItems vs

def orderedFields : List (String × Json) → List (String × Json)
  | [] => []
  | (k, v) :: fs => (k, ordered v) :: orderedFields fs

end

theorem keepLast_of_pairwise (out fs : List (String × Json)) (h : fs.Pairwise fun a b ↦ a.1 < b.1) :
    keepLast out fs = out.reverse ++ fs := by
  fun_induction keepLast out fs with
  | case1 => simp
  | case2 => simp
  | case3 out e d fs heq ih =>
    have hlt := (List.pairwise_cons.1 h).1 d List.mem_cons_self
    exact absurd hlt (heq ▸ String.lt_irrefl e.1)
  | case4 out e d fs hne ih => simp [ih (List.pairwise_cons.1 h).2]

theorem ofFields_of_pairwise {fs : List (String × Json)} (h : fs.Pairwise fun a b ↦ a.1 < b.1) :
    ofFields fs = object fs := by
  have hle : fs.Pairwise fun a b ↦ decide (a.1 ≤ b.1) = true :=
    h.imp fun hlt ↦ decide_eq_true (String.not_lt.1 (String.lt_asymm hlt))
  rw [ofFields, List.mergeSort_of_pairwise hle, keepLast_of_pairwise _ _ h]
  rfl

mutual

theorem ordered_eq_self (v : Json) (h : v.All IsOrdered) : v.ordered = v := by
  match v with
  | null | bool _ | integer _ | double _ | string _ => rfl
  | array vs => rw [ordered, orderedItems_eq_self vs h.2]
  | object fs => rw [ordered, orderedFields_eq_self fs h.2, ofFields_of_pairwise h.1]

theorem orderedItems_eq_self (vs : List Json) (h : AllItems IsOrdered vs) : orderedItems vs = vs := by
  match vs with
  | [] => rfl
  | v :: vs => rw [orderedItems, ordered_eq_self v h.1, orderedItems_eq_self vs h.2]

theorem orderedFields_eq_self (fs : List (String × Json)) (h : AllFields IsOrdered fs) :
    orderedFields fs = fs := by
  match fs with
  | [] => rfl
  | (k, v) :: fs => rw [orderedFields, ordered_eq_self v h.1, orderedFields_eq_self fs h.2]

end

section

variable {P : Json → Prop} {fs : List (String × Json)} {name : String} {v w : Json}

theorem AllFields.lookup (h : AllFields P fs) (hv : fs.lookup name = some v) : v.All P := by
  induction fs with
  | nil => cases hv
  | cons f fs ih =>
    rw [Catalog.lookup_cons] at hv
    split at hv
    · obtain rfl := Option.some.inj hv
      exact h.1
    · exact ih h.2 hv

theorem depth_le_depthFields (hv : fs.lookup name = some v) : v.depth ≤ depthFields fs := by
  induction fs with
  | nil => cases hv
  | cons f fs ih =>
    rw [Catalog.lookup_cons] at hv
    rw [depthFields]
    split at hv
    · obtain rfl := Option.some.inj hv
      exact Nat.le_max_left _ _
    · exact Nat.le_trans (ih hv) (Nat.le_max_right _ _)

theorem All.field? (h : v.All P) (hw : v.field? name = some w) : w.All P := by
  cases v with
  | object fs => exact AllFields.lookup h.2 hw
  | _ => cases hw

theorem depth_lt_of_field? (hw : v.field? name = some w) : w.depth < v.depth := by
  cases v with
  | object fs => exact Nat.lt_succ_of_le (depth_le_depthFields hw)
  | _ => cases hw

end

section

variable {α : Type} {fs gs : List (String × α)}

theorem lookup_eq_some_iff_mem {name : String} {a : α} (h : (fs.map Prod.fst).Nodup) :
    fs.lookup name = some a ↔ (name, a) ∈ fs := by
  induction fs with
  | nil => simp
  | cons f fs ih =>
    obtain ⟨hf, hfs⟩ := List.nodup_cons.1 h
    rw [Catalog.lookup_cons, List.mem_cons]
    split
    next heq =>
      have hmem : (f.1, a) ∉ fs := fun hm ↦ hf (List.mem_map.2 ⟨_, hm, rfl⟩)
      simp [heq, hmem, Prod.ext_iff, eq_comm]
    next hne =>
      rw [ih hfs]
      simp [Prod.ext_iff, hne]

theorem lookup_perm (h : fs.Perm gs) (hfs : (fs.map Prod.fst).Nodup) (name : String) :
    fs.lookup name = gs.lookup name := by
  have hgs : (gs.map Prod.fst).Nodup := (h.map Prod.fst).nodup_iff.1 hfs
  ext a
  rw [lookup_eq_some_iff_mem hfs, lookup_eq_some_iff_mem hgs, h.mem_iff]

end

theorem pairwise_mergeSort_fields (fs : List (String × Json)) :
    (fs.mergeSort fun a b ↦ decide (a.1 ≤ b.1)).Pairwise fun a b ↦ a.1 ≤ b.1 := by
  have h := @List.pairwise_mergeSort (String × Json) (fun a b ↦ decide (a.1 ≤ b.1))
    (fun a b c hab hbc ↦ ?_) (fun a b ↦ ?_) fs
  · exact h.imp of_decide_eq_true
  · exact decide_eq_true (String.le_trans (of_decide_eq_true hab) (of_decide_eq_true hbc))
  · simpa using String.le_total a.1 b.1

theorem exists_ofFields {fs : List (String × Json)} (h : (fs.map Prod.fst).Nodup) :
    ∃ gs, ofFields fs = object gs ∧ gs.Perm fs := by
  have hperm := List.mergeSort_perm fs fun a b ↦ decide (a.1 ≤ b.1)
  have hnodup := (hperm.map Prod.fst).nodup_iff.2 h
  have hle := pairwise_mergeSort_fields fs
  -- Names that are in order and different leave nothing to drop.
  have hlt : (fs.mergeSort fun a b ↦ decide (a.1 ≤ b.1)).Pairwise fun a b ↦ a.1 < b.1 := by
    refine (hle.and (List.pairwise_map.1 hnodup)).imp fun ⟨hab, hne⟩ ↦ ?_
    exact key_lt_of_not_lt (String.not_lt.2 hab) (Ne.symm hne)
  refine ⟨_, ?_, hperm⟩
  rw [ofFields, keepLast_of_pairwise _ _ hlt, List.reverse_nil, List.nil_append]

theorem field?_ofFields {fs : List (String × Json)} (h : (fs.map Prod.fst).Nodup) (name : String) :
    (ofFields fs).field? name = fs.lookup name := by
  obtain ⟨gs, hgs, hperm⟩ := exists_ofFields h
  rw [hgs]
  exact lookup_perm hperm ((hperm.map Prod.fst).nodup_iff.2 h) name

section

variable {v : Json} {k t : String}

theorem ordered_eq_string_iff : v.ordered = .string t ↔ v = .string t := by
  cases v <;> simp [ordered, ofFields]

theorem exists_object_of_ordered {gs : List (String × Json)} (h : v.ordered = .object gs) :
    ∃ fs, v = .object fs := by
  cases v with
  | object fs => exact ⟨fs, rfl⟩
  | _ => cases h

theorem lookup_orderedFields (fs : List (String × Json)) (k : String) :
    (orderedFields fs).lookup k = (fs.lookup k).map ordered := by
  induction fs with
  | nil => rfl
  | cons f fs ih =>
    rw [orderedFields, Catalog.lookup_cons, Catalog.lookup_cons, ih]
    split <;> rfl

theorem map_fst_orderedFields (fs : List (String × Json)) :
    (orderedFields fs).map Prod.fst = fs.map Prod.fst := by
  induction fs with
  | nil => rfl
  | cons f fs ih => rw [orderedFields, List.map_cons, List.map_cons, ih]

theorem field?_ordered (h : v.All HasDistinctNames) (k : String) :
    v.ordered.field? k = (v.field? k).map ordered := by
  cases v with
  | object fs =>
    rw [ordered, field?_ofFields, lookup_orderedFields]
    · rfl
    · rw [map_fst_orderedFields]
      exact h.1
  | _ => rfl

theorem field?_ordered_eq_string_iff (h : v.All HasDistinctNames) :
    v.ordered.field? k = some (.string t) ↔ v.field? k = some (.string t) := by
  rw [field?_ordered h, Option.map_eq_some_iff]
  simp [ordered_eq_string_iff]

end

end Gatekeeper.Json
