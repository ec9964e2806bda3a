import Gatekeeper.Catalog

namespace Gatekeeper.Catalog

variable {α β : Type}

theorem mem_entries_of_get? {c : Catalog α} {k : String} {v : α} (h : c.get? k = some v) :
    (k, v) ∈ c.entries := by
  obtain ⟨es, hes⟩ := c
  change es.lookup k = some v at h
  change (k, v) ∈ es
  clear hes
  induction es with
  | nil => cases h
  | cons e es ih =>
    rw [lookup_cons] at h
    split at h
    next heq =>
      cases h
      rw [heq]
      exact List.mem_cons_self
    · exact List.mem_cons_of_mem e (ih h)

def map (f : String → α → β) (c : Catalog α) : Catalog β :=
  ⟨c.entries.map fun e ↦ (e.1, f e.1 e.2), c.sorted.map _ fun _ _ h ↦ h⟩

theorem get?_map (f : String → α → β) (c : Catalog α) (k : String) :
    (c.map f).get? k = (c.get? k).map (f k) := by
  obtain ⟨es, hes⟩ := c
  change (es.map fun e ↦ (e.1, f e.1 e.2)).lookup k = (es.lookup k).map (f k)
  clear hes
  induction es with
  | nil => rfl
  | cons e es ih =>
    rw [List.map_cons, lookup_cons, lookup_cons, ih]
    split
    next h => rw [h]; rfl
    · rfl

theorem contains_map (f : String → α → β) (c : Catalog α) (k : String) :
    (c.map f).contains k = c.contains k := by rw [contains, contains, get?_map, Option.isSome_map]

theorem keys_map (f : String → α → β) (c : Catalog α) : (c.map f).keys = c.keys := by
  simp [keys, map, Function.comp_def]

theorem ext {c c' : Catalog α} (h : c.entries = c'.entries) : c = c' := by
  cases c
  cases c'
  simp_all

theorem place_map (f : String → α → β) (k : String) (v : α) (es : List (String × α)) :
    place k (f k v) (es.map fun e ↦ (e.1, f e.1 e.2)) = (place k v es).map fun e ↦ (e.1, f e.1 e.2) := by
  induction es with
  | nil => rfl
  | cons e es ih =>
    simp only [List.map_cons, place, ih]
    split
    · rfl
    · split <;> rfl

theorem insert_map (f : String → α → β) (c : Catalog α) (k : String) (v : α) :
    (c.map f).insert k (f k v) = (c.insert k v).map f := ext (place_map f k v c.entries)

theorem erase_map (f : String → α → β) (c : Catalog α) (k : String) :
    (c.map f).erase k = (c.erase k).map f := ext List.filter_map

theorem erase_of_not_contains {c : Catalog α} {k : String} (h : c.contains k = false) : c.erase k = c := by
  have hnone : c.entries.lookup k = none := Option.isNone_iff_eq_none.1 (Option.isSome_eq_false_iff.1 h)
  refine ext (List.filter_eq_self.2 fun e he ↦ ?_)
  have hne := List.lookup_eq_none_iff.1 hnone e he
  exact decide_eq_true fun heq ↦ by simp [heq] at hne

theorem contains_insert (c : Catalog α) (k : String) (v : α) (k' : String) :
    (c.insert k v).contains k' = (decide (k' = k) || c.contains k') := by
  rw [contains, contains, get?_insert]
  split <;> simp_all

theorem get?_eq_some_iff {c : Catalog α} {k : String} {v : α} : c.get? k = some v ↔ (k, v) ∈ c.entries := by
  refine ⟨mem_entries_of_get?, fun h ↦ ?_⟩
  obtain ⟨es, hes⟩ := c
  change es.lookup k = some v
  induction es with
  | nil => cases h
  | cons e es ih =>
    obtain ⟨he, hrest⟩ := List.pairwise_cons.1 hes
    rw [lookup_cons]
    rcases List.mem_cons.1 h with rfl | h
    · rw [if_pos rfl]
    · have hne : k ≠ e.1 := fun heq ↦ String.lt_irrefl k (by simpa [heq] using he _ h)
      rw [if_neg hne]
      exact ih hrest h

theorem mem_keys_iff {c : Catalog α} {k : String} : k ∈ c.keys ↔ (c.get? k).isSome := by
  simp only [keys, List.mem_map, Option.isSome_iff_exists, get?_eq_some_iff]
  constructor
  · rintro ⟨⟨_, v⟩, hmem, rfl⟩
    exact ⟨v, hmem⟩
  · rintro ⟨v, hmem⟩
    exact ⟨(k, v), hmem, rfl⟩

theorem perm_place {k : String} {v : α} {es : List (String × α)} (h : ∀ e ∈ es, k ≠ e.1) :
    (place k v es).Perm ((k, v) :: es) := by
  induction es with
  | nil => exact .refl _
  | cons e es ih =>
    simp only [place, if_neg (h e List.mem_cons_self)]
    split
    · exact .refl _
    · exact (List.Perm.cons e (ih fun d hd ↦ h d (List.mem_cons_of_mem e hd))).trans (.swap _ _ _)

theorem perm_insert {c : Catalog α} {k : String} (h : c.contains k = false) (v : α) :
    (c.insert k v).entries.Perm ((k, v) :: c.entries) := by
  refine perm_place fun e he hk ↦ ?_
  have hsome : c.get? k = some e.2 := get?_eq_some_iff.2 (hk ▸ he)
  rw [contains, hsome] at h
  cases h

variable {ε ι κ : Type} {step : κ → ι → Except ε κ} {catalog : κ → Catalog α} {row? : ι → Option (String × α)}

theorem foldlM_insert
    (hstep : ∀ s x e, row? x = some e → (catalog s).contains e.1 = false →
      ∃ s', step s x = .ok s' ∧ catalog s' = (catalog s).insert e.1 e.2)
    (xs : List ι) (hall : ∀ x ∈ xs, ∃ e, row? x = some e)
    (hdistinct : ((xs.filterMap row?).map Prod.fst).Nodup) {s : κ}
    (hnew : ∀ e ∈ xs.filterMap row?, (catalog s).contains e.1 = false) :
    ∃ s', xs.foldlM step s = .ok s' ∧
      (catalog s').entries.Perm (xs.filterMap row? ++ (catalog s).entries) := by
  induction xs generalizing s with
  | nil => exact ⟨s, rfl, .refl _⟩
  | cons x xs ih =>
    obtain ⟨e, hx⟩ := hall x List.mem_cons_self
    rw [List.filterMap_cons_some hx] at hdistinct hnew ⊢
    have hfree := hnew e List.mem_cons_self
    obtain ⟨hnotin, hdistinct⟩ := List.nodup_cons.1 hdistinct
    obtain ⟨s₁, hs₁, hcatalog⟩ := hstep s x e hx hfree
    have hnew₁ : ∀ e' ∈ xs.filterMap row?, (catalog s₁).contains e'.1 = false := by
      intro e' he'
      have hne : e'.1 ≠ e.1 := fun heq ↦ hnotin (heq ▸ List.mem_map_of_mem he')
      rw [hcatalog, contains_insert, decide_eq_false hne, Bool.false_or]
      exact hnew e' (List.mem_cons_of_mem e he')
    obtain ⟨s', hs', hperm⟩ := ih (fun y hy ↦ hall y (List.mem_cons_of_mem x hy)) hdistinct hnew₁
    refine ⟨s', ?_, hperm.trans ?_⟩
    · rw [List.foldlM_cons, hs₁]
      exact hs'
    · rw [hcatalog]
      exact ((perm_insert hfree e.2).append_left _).trans List.perm_middle

end Gatekeeper.Catalog
