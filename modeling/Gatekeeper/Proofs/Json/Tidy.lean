import Gatekeeper.Proofs.Json.Grammar

namespace Gatekeeper.Json

variable {P : Json → Prop} {v : Json}

theorem keepLast_pairwise (out fs : List (String × Json)) (hfs : fs.Pairwise fun a b ↦ a.1 ≤ b.1)
    (hout : out.Pairwise fun a b ↦ b.1 < a.1) (hlt : ∀ a ∈ out, ∀ b ∈ fs, a.1 < b.1) :
    (keepLast out fs).Pairwise fun a b ↦ a.1 < b.1 := by
  -- The entries of `out` are in order backwards, and all before those that are still to come.
  fun_induction keepLast out fs with
  | case1 out => exact List.pairwise_reverse.2 hout
  | case2 out e =>
    refine List.pairwise_reverse.2 (List.pairwise_cons.2 ⟨fun a ha ↦ ?_, hout⟩)
    exact hlt a ha e List.mem_cons_self
  | case3 out e d es heq ih =>
    have hes := (List.pairwise_cons.1 hfs).2
    exact ih hes hout fun a ha b hb ↦ hlt a ha b (List.mem_cons_of_mem _ hb)
  | case4 out e d es hne ih =>
    obtain ⟨he, hes⟩ := List.pairwise_cons.1 hfs
    have hed : e.1 < d.1 := by
      have hle := he d List.mem_cons_self
      exact key_lt_of_not_lt (String.not_lt.2 hle) (Ne.symm hne)
    refine ih hes (List.pairwise_cons.2 ⟨fun a ha ↦ ?_, hout⟩) fun a ha b hb ↦ ?_
    · exact hlt a ha e List.mem_cons_self
    · rcases List.mem_cons.1 ha with rfl | ha
      · rcases List.mem_cons.1 hb with rfl | hb
        · exact hed
        · exact Std.lt_of_lt_of_le hed ((List.pairwise_cons.1 hes).1 b hb)
      · exact hlt a ha b (List.mem_cons_of_mem _ hb)

theorem mem_of_mem_keepLast {out fs : List (String × Json)} {f : String × Json}
    (h : f ∈ keepLast out fs) : f ∈ out ∨ f ∈ fs := by
  fun_induction keepLast out fs <;> grind

theorem allItems_iff {vs : List Json} : AllItems P vs ↔ ∀ v ∈ vs, v.All P := by
  induction vs with
  | nil => simp [AllItems]
  | cons v vs ih => simp [AllItems, ih]

theorem allFields_iff {fs : List (String × Json)} : AllFields P fs ↔ ∀ f ∈ fs, f.2.All P := by
  induction fs with
  | nil => simp [AllFields]
  | cons f fs ih => simp [AllFields, ih]

theorem depthItems_le_iff {vs : List Json} {n : Nat} : depthItems vs ≤ n ↔ ∀ v ∈ vs, v.depth ≤ n := by
  induction vs with
  | nil => simp [depthItems]
  | cons v vs ih => rw [depthItems, Nat.max_le, ih, List.forall_mem_cons]

theorem depthFields_le_iff {fs : List (String × Json)} {n : Nat} :
    depthFields fs ≤ n ↔ ∀ f ∈ fs, f.2.depth ≤ n := by
  induction fs with
  | nil => simp [depthFields]
  | cons f fs ih => rw [depthFields, Nat.max_le, ih, List.forall_mem_cons]

structure Tidy (room : Nat) (v : Json) : Prop where
  ordered : v.All IsOrdered
  shallow : v.depth ≤ room

theorem tidy_array {room : Nat} {vs : List Json} (h : ∀ v ∈ vs, Tidy room v) :
    Tidy (room + 1) (array vs) where
  ordered := ⟨trivial, allItems_iff.2 fun v hv ↦ (h v hv).ordered⟩
  shallow := Nat.succ_le_succ (depthItems_le_iff.2 fun v hv ↦ (h v hv).shallow)

theorem tidy_ofFields {room : Nat} {fs : List (String × Json)} (h : ∀ f ∈ fs, Tidy room f.2) :
    Tidy (room + 1) (ofFields fs) := by
  have hkept : ∀ f ∈ keepLast [] (fs.mergeSort fun a b ↦ decide (a.1 ≤ b.1)), Tidy room f.2 := by
    intro f hf
    rcases mem_of_mem_keepLast hf with hf | hf
    · cases hf
    · exact h f (List.mem_mergeSort.1 hf)
  constructor
  · refine ⟨keepLast_pairwise [] _ (pairwise_mergeSort_fields fs) .nil nofun, ?_⟩
    exact allFields_iff.2 fun f hf ↦ (hkept f hf).ordered
  · exact Nat.succ_le_succ (depthFields_le_iff.2 fun f hf ↦ (hkept f hf).shallow)

mutual

theorem tidy_ordered (room : Nat) (v : Json) (h : v.depth ≤ room) : Tidy room v.ordered := by
  match v with
  | null | bool _ | integer _ | double _ | string _ => exact ⟨trivial, h⟩
  | array vs =>
    obtain ⟨room, rfl⟩ := Nat.exists_eq_add_one_of_ne_zero (Nat.ne_of_gt (Nat.zero_lt_of_lt h))
    exact tidy_array (tidy_orderedItems room vs (Nat.le_of_succ_le_succ h))
  | object fs =>
    obtain ⟨room, rfl⟩ := Nat.exists_eq_add_one_of_ne_zero (Nat.ne_of_gt (Nat.zero_lt_of_lt h))
    exact tidy_ofFields (tidy_orderedFields room fs (Nat.le_of_succ_le_succ h))

theorem tidy_orderedItems (room : Nat) (vs : List Json) (h : depthItems vs ≤ room) :
    ∀ v ∈ orderedItems vs, Tidy room v := by
  match vs with
  | [] => exact nofun
  | v :: vs =>
    obtain ⟨hv, hvs⟩ := Nat.max_le.1 h
    exact List.forall_mem_cons.2 ⟨tidy_ordered room v hv, tidy_orderedItems room vs hvs⟩

theorem tidy_orderedFields (room : Nat) (fs : List (String × Json)) (h : depthFields fs ≤ room) :
    ∀ f ∈ orderedFields fs, Tidy room f.2 := by
  match fs with
  | [] => exact nofun
  | (_, v) :: fs =>
    obtain ⟨hv, hfs⟩ := Nat.max_le.1 h
    exact List.forall_mem_cons.2 ⟨tidy_ordered room v hv, tidy_orderedFields room fs hfs⟩

end

theorem tidy_of_parse {s : String} (h : parse s = .ok v) : Tidy maxDepth v := by
  obtain ⟨w, -, hdepth, rfl⟩ := parse_eq_ok_iff.1 h
  exact tidy_ordered maxDepth w hdepth

end Gatekeeper.Json
