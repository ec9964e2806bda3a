import Gatekeeper.Proofs.Json.Shaped

namespace Gatekeeper

namespace Shape

variable {fields : List (Field × Shape)} {f : Field × Shape} {name : String}

/-- Every field goes by its own name alone, and no two go by one. -/
structure IsPlain (fields : List (Field × Shape)) : Prop where
  own : ∀ f ∈ fields, f.1.aliases = []
  distinct : (fields.map fun f ↦ f.1.name).Nodup

theorem find?_of_mem (h : IsPlain fields) (hf : f ∈ fields) : find? fields f.1.name = some f := by
  obtain ⟨own, distinct⟩ := h
  induction fields with
  | nil => cases hf
  | cons g fields ih =>
    obtain ⟨hg, hfields⟩ := List.nodup_cons.1 distinct
    rw [find?, List.find?_cons]
    rcases List.mem_cons.1 hf with rfl | hf
    · simp [Field.answersTo]
    · have hne : g.1.name ≠ f.1.name := fun heq ↦ hg (List.mem_map.2 ⟨f, hf, heq.symm⟩)
      have hnot : g.1.answersTo f.1.name = false := by
        simp [Field.answersTo, own g List.mem_cons_self, hne]
      rw [hnot]
      exact ih hf (fun g hg ↦ own g (List.mem_cons_of_mem _ hg)) hfields

theorem name_of_find? (h : IsPlain fields) (hf : find? fields name = some f) :
    f ∈ fields ∧ f.1.name = name := by
  have hmem := List.mem_of_find?_eq_some hf
  have hname := List.find?_some hf
  simp only [Field.answersTo, h.own f hmem, List.contains_nil, Bool.or_false, beq_iff_eq] at hname
  exact ⟨hmem, hname⟩

theorem complete_iff {given : List String} :
    complete fields given ↔ ∀ f ∈ fields, f.1.required → f.1.name ∈ given := by
  simp only [complete, List.all_eq_true, Bool.or_eq_true, Bool.not_eq_true', List.contains_iff_mem]
  refine forall₂_congr fun f hf ↦ ?_
  cases f.1.required <;> simp

end Shape

namespace Json

variable {field? : String → Option (String × (Json → Except Fault Json))} {complete : List String → Bool}
  {fs gs out ws : List (String × Json)} {k : String}

/-- The fields that are known, with what they become, in the order in which they are written. -/
inductive Takes (field? : String → Option (String × (Json → Except Fault Json))) :
    List (String × Json) → List (String × Json) → Prop
  | nil : Takes field? [] []
  | pass {k : String} {v : Json} {fs gs : List (String × Json)} (hk : field? k = none)
      (hfs : Takes field? fs gs) : Takes field? ((k, v) :: fs) gs
  | take {k name : String} {v w : Json} {take : Json → Except Fault Json} {fs gs : List (String × Json)}
      (hk : field? k = some (name, take)) (hv : take v = .ok w) (hfs : Takes field? fs gs) :
      Takes field? ((k, v) :: fs) ((name, w) :: gs)

theorem takes_of_gathered (h : gathered field? complete out fs = .ok ws) :
    ∃ gs, Takes field? fs gs ∧ ws = out.reverse ++ gs := by
  induction fs generalizing out with
  | nil =>
    rw [gathered] at h
    split at h <;> cases h
    exact ⟨[], .nil, (List.append_nil _).symm⟩
  | cons f fs ih =>
    rw [gathered] at h
    split at h
    next hk =>
      obtain ⟨gs, hgs, hws⟩ := ih h
      exact ⟨gs, .pass hk hgs, hws⟩
    next name take hk =>
      split at h
      · cases h
      · split at h
        · cases h
        next w hw =>
          obtain ⟨gs, hgs, hws⟩ := ih h
          exact ⟨_, .take hk hw hgs, by simpa using hws⟩

theorem gathered_of_takes (h : Takes field? fs gs) (hnodup : ((gs.reverse ++ out).map Prod.fst).Nodup)
    (hcomplete : complete ((gs.reverse ++ out).map Prod.fst)) :
    gathered field? complete out fs = .ok (out.reverse ++ gs) := by
  induction h generalizing out with
  | nil =>
    rw [List.reverse_nil, List.nil_append] at hcomplete
    rw [gathered, if_pos hcomplete, List.append_nil]
  | pass hk hfs ih =>
    simp only [gathered, hk]
    exact ih hnodup hcomplete
  | @take k name v w take fs gs hk hv hfs ih =>
    have hmove : ((name, w) :: gs).reverse ++ out = gs.reverse ++ (name, w) :: out := by simp
    rw [hmove] at hnodup hcomplete
    have hnew : name ∉ out.map Prod.fst := by
      rw [List.map_append] at hnodup
      exact (List.nodup_cons.1 (hnodup.sublist (List.sublist_append_right _ _))).1
    have hrest := ih hnodup hcomplete
    simp only [gathered, hk, hv, List.contains_iff_mem, if_neg hnew, hrest]
    simp

section

variable (hown : ∀ k name take, field? k = some (name, take) → name = k)
include hown

theorem Takes.sublist (h : Takes field? fs gs) : (gs.map Prod.fst).Sublist (fs.map Prod.fst) := by
  induction h with
  | nil => exact .slnil
  | pass hk hfs ih => exact ih.cons _
  | take hk hv hfs ih =>
    obtain rfl := hown _ _ _ hk
    exact ih.cons_cons _

theorem Takes.lookup (h : Takes field? fs gs) {take : Json → Except Fault Json}
    (hk : field? k = some (k, take)) :
    Option.Rel (fun v w ↦ take v = .ok w) (fs.lookup k) (gs.lookup k) := by
  induction h with
  | nil => exact .none
  | @pass j v fs gs hj hfs ih =>
    have hne : k ≠ j := by
      rintro rfl
      rw [hj] at hk
      cases hk
    rw [Catalog.lookup_cons, if_neg hne]
    exact ih
  | @take j name v w take' fs gs hj hv hfs ih =>
    obtain rfl := hown _ _ _ hj
    rw [Catalog.lookup_cons, Catalog.lookup_cons]
    split
    next heq =>
      obtain rfl : k = name := heq
      rw [hj] at hk
      cases hk
      exact .some hv
    · exact ih

end

theorem exists_takes (h : ∀ f ∈ fs, ∀ name take, field? f.1 = some (name, take) → ∃ w, take f.2 = .ok w) :
    ∃ gs, Takes field? fs gs := by
  induction fs with
  | nil => exact ⟨[], .nil⟩
  | cons f fs ih =>
    obtain ⟨hf, hfs⟩ := List.forall_mem_cons.1 h
    obtain ⟨gs, hgs⟩ := ih hfs
    cases hk : field? f.1 with
    | none => exact ⟨gs, .pass hk hgs⟩
    | some r =>
      obtain ⟨w, hw⟩ := hf r.1 r.2 hk
      exact ⟨_, .take hk hw hgs⟩

section

variable {fields : List (Field × Shape)} {f : Field × Shape} {w : Json}

theorem name_of_shapedField? (hplain : Shape.IsPlain fields) (k name : String)
    (take : Json → Except Fault Json) (h : shapedField? fields k = some (name, take)) : name = k := by
  rw [shapedField?_eq] at h
  obtain ⟨f, hf, heq⟩ := Option.map_eq_some_iff.1 h
  cases heq
  exact (Shape.name_of_find? hplain hf).2

theorem shapedField?_of_mem (hplain : Shape.IsPlain fields) (hf : f ∈ fields) :
    shapedField? fields f.1.name = some (f.1.name, shaped f.2) := by
  rw [shapedField?_eq, Shape.find?_of_mem hplain hf, Option.map_some]

theorem field?_of_shaped (hplain : Shape.IsPlain fields) (h : shaped (.record fields) (.object fs) = .ok w)
    (hf : f ∈ fields) :
    Option.Rel (fun v u ↦ shaped f.2 v = .ok u) (fs.lookup f.1.name) (w.field? f.1.name) := by
  rw [shaped] at h
  obtain ⟨ws, hws, rfl⟩ := map_eq_ok_iff.1 h
  obtain ⟨gs, hgs, rfl⟩ := takes_of_gathered hws
  exact hgs.lookup (name_of_shapedField? hplain) (shapedField?_of_mem hplain hf)

theorem field?_eq_some_iff (hplain : Shape.IsPlain fields) (h : shaped (.record fields) (.object fs) = .ok w)
    (hf : f ∈ fields) {u : Json} :
    w.field? f.1.name = some u ↔ ∃ v, fs.lookup f.1.name = some v ∧ shaped f.2 v = .ok u := by
  have hrel := field?_of_shaped hplain h hf
  generalize fs.lookup f.1.name = a at hrel
  generalize w.field? f.1.name = b at hrel
  cases hrel with
  | none => simp
  | some hvu => simp [hvu]

theorem field?_eq_none_iff (hplain : Shape.IsPlain fields) (h : shaped (.record fields) (.object fs) = .ok w)
    (hf : f ∈ fields) : w.field? f.1.name = none ↔ fs.lookup f.1.name = none := by
  have hrel := field?_of_shaped hplain h hf
  generalize fs.lookup f.1.name = a at hrel
  generalize w.field? f.1.name = b at hrel
  cases hrel <;> simp

/-- A field of a record can be taken out of the fields of an object, or is left out as it may be. -/
def Suits (fs : List (String × Json)) (f : Field × Shape) : Prop :=
  (∃ v u, fs.lookup f.1.name = some v ∧ shaped f.2 v = .ok u) ∨
    fs.lookup f.1.name = none ∧ f.1.required = false

theorem exists_shaped_record (hplain : Shape.IsPlain fields) (hfs : (fs.map Prod.fst).Nodup)
    (h : ∀ f ∈ fields, Suits fs f) : ∃ w, shaped (.record fields) (.object fs) = .ok w := by
  have hown := name_of_shapedField? hplain
  obtain ⟨gs, hgs⟩ : ∃ gs, Takes (shapedField? fields) fs gs := by
    refine exists_takes fun g hg name take hk ↦ ?_
    rw [shapedField?_eq] at hk
    obtain ⟨f, hf, heq⟩ := Option.map_eq_some_iff.1 hk
    cases heq
    obtain ⟨hmem, hname⟩ := Shape.name_of_find? hplain hf
    have hlookup : fs.lookup f.1.name = some g.2 := by
      rw [hname]
      exact (lookup_eq_some_iff_mem hfs).2 hg
    rcases h f hmem with ⟨v, u, hv, hu⟩ | ⟨hnone, -⟩
    · obtain rfl := Option.some.inj (hv.symm.trans hlookup)
      exact ⟨u, hu⟩
    · cases hnone.symm.trans hlookup
  have hnodup : (gs.map Prod.fst).Nodup := hfs.sublist (hgs.sublist hown)
  have hcomplete : Shape.complete fields ((gs.reverse ++ []).map Prod.fst) := by
    refine Shape.complete_iff.2 fun f hf hrequired ↦ ?_
    rcases h f hf with ⟨v, u, hv, -⟩ | ⟨-, hoptional⟩
    · have hrel := hgs.lookup hown (shapedField?_of_mem hplain hf)
      rw [hv] at hrel
      cases hw : gs.lookup f.1.name with
      | none =>
        rw [hw] at hrel
        cases hrel
      | some u =>
        have hmem := (lookup_eq_some_iff_mem hnodup).1 hw
        rw [List.append_nil, List.map_reverse, List.mem_reverse]
        exact List.mem_map.2 ⟨_, hmem, rfl⟩
    · rw [hoptional] at hrequired
      cases hrequired
  have hdistinct : ((gs.reverse ++ []).map Prod.fst).Nodup := by
    rw [List.append_nil, List.map_reverse]
    exact (List.reverse_perm _).nodup_iff.2 hnodup
  refine ⟨.object gs, ?_⟩
  rw [shaped, gathered_of_takes hgs hdistinct hcomplete]
  rfl

end

end Json

end Gatekeeper
