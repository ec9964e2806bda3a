namespace Gatekeeper

variable {α β : Type}

theorem key_lt_of_not_lt {a b : String} (h : ¬ a < b) (hne : a ≠ b) : b < a := by
  rcases Std.lt_trichotomy a b with hlt | heq | hgt
  · exact absurd hlt h
  · exact absurd heq hne
  · exact hgt

structure Catalog (α : Type) where
  entries : List (String × α)
  sorted : entries.Pairwise fun a b ↦ a.1 < b.1

namespace Catalog

def empty : Catalog α := ⟨[], .nil⟩

instance : EmptyCollection (Catalog α) := ⟨empty⟩

instance : Inhabited (Catalog α) := ⟨empty⟩

def keys (c : Catalog α) : List String := c.entries.map Prod.fst

def values (c : Catalog α) : List α := c.entries.map Prod.snd

def size (c : Catalog α) : Nat := c.entries.length

def get? (c : Catalog α) (k : String) : Option α := c.entries.lookup k

def contains (c : Catalog α) (k : String) : Bool := (c.get? k).isSome

def place (k : String) (v : α) : List (String × α) → List (String × α)
  | [] => [(k, v)]
  | e :: es =>
    if k < e.1 then (k, v) :: e :: es
    else if k = e.1 then (k, v) :: es
    else e :: place k v es

theorem mem_place {k : String} {v : α} {es : List (String × α)} {e : String × α}
    (h : e ∈ place k v es) : e = (k, v) ∨ e ∈ es := by
  induction es with
  | nil => simpa [place] using h
  | cons d ds ih => grind [place]

theorem sorted_place {k : String} {v : α} {es : List (String × α)}
    (h : es.Pairwise fun a b ↦ a.1 < b.1) : (place k v es).Pairwise fun a b ↦ a.1 < b.1 := by
  induction es with
  | nil => simp [place]
  | cons d ds ih =>
    obtain ⟨hd, hds⟩ := List.pairwise_cons.1 h
    simp only [place]
    split
    next hlt =>
      refine List.pairwise_cons.2 ⟨fun e he ↦ ?_, h⟩
      rcases List.mem_cons.1 he with rfl | he
      · exact hlt
      · exact Std.lt_trans hlt (hd e he)
    next hlt =>
      split
      next heq => exact List.pairwise_cons.2 ⟨fun e he ↦ heq ▸ hd e he, hds⟩
      next hne =>
        refine List.pairwise_cons.2 ⟨fun e he ↦ ?_, ih hds⟩
        rcases mem_place he with rfl | he
        · exact key_lt_of_not_lt hlt hne
        · exact hd e he

def insert (c : Catalog α) (k : String) (v : α) : Catalog α :=
  ⟨place k v c.entries, sorted_place c.sorted⟩

def erase (c : Catalog α) (k : String) : Catalog α :=
  ⟨c.entries.filter fun e ↦ e.1 ≠ k, c.sorted.filter _⟩

/-- The entries put in one after another, so that of two with one key the later stays. -/
def ofList (es : List (String × α)) : Catalog α :=
  es.foldl (fun c e ↦ c.insert e.1 e.2) ∅

theorem lookup_cons (k : String) (v : α) (es : List (String × α)) (k' : String) :
    ((k, v) :: es).lookup k' = if k' = k then some v else es.lookup k' := by
  by_cases h : k' = k
  · simp [h]
  · rw [if_neg h]
    show (match k' == k with | true => some v | false => es.lookup k') = es.lookup k'
    rw [beq_false_of_ne h]

theorem lookup_place (k : String) (v : α) (es : List (String × α)) (k' : String) :
    (place k v es).lookup k' = if k' = k then some v else es.lookup k' := by
  induction es with
  | nil => exact lookup_cons k v [] k'
  | cons d ds ih =>
    obtain ⟨dk, dv⟩ := d
    simp only [place]
    split
    · exact lookup_cons k v _ k'
    · split
      · subst_vars
        simp only [lookup_cons]
        split <;> rfl
      · simp only [lookup_cons, ih]
        grind

theorem get?_insert (c : Catalog α) (k : String) (v : α) (k' : String) :
    (c.insert k v).get? k' = if k' = k then some v else c.get? k' :=
  lookup_place k v c.entries k'

theorem lookup_filter_ne (k : String) (es : List (String × α)) (k' : String) :
    (es.filter fun e ↦ e.1 ≠ k).lookup k' = if k' = k then none else es.lookup k' := by
  induction es with
  | nil => simp
  | cons d ds ih =>
    obtain ⟨dk, dv⟩ := d
    by_cases hd : dk = k
    · rw [List.filter_cons_of_neg (by simpa using hd), ih, lookup_cons]
      grind
    · rw [List.filter_cons_of_pos (by simpa using hd), lookup_cons, lookup_cons, ih]
      grind

theorem get?_erase (c : Catalog α) (k k' : String) :
    (c.erase k).get? k' = if k' = k then none else c.get? k' :=
  lookup_filter_ne k c.entries k'

@[simp] theorem get?_empty (k : String) : (∅ : Catalog α).get? k = none := rfl

end Catalog

end Gatekeeper
