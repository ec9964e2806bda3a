import Gatekeeper.Database.Table
import Gatekeeper.Proofs.Catalog

namespace Gatekeeper

theorem Cell.text?_eq_some_iff {c : Cell} {s : String} : c.text? = some s ↔ c = .text s := by
  cases c <;> simp [text?]

namespace Row

variable {r : Row} {rs : List Row} {name : String} {p : Row → Bool}

theorem isOf_iff : r.isOf name = true ↔ r.identity = .text name := by
  rw [isOf, beq_iff_eq, name?, Cell.text?_eq_some_iff]

theorem isOf_eq_false_iff : r.isOf name = false ↔ r.identity ≠ .text name := by
  rw [Bool.eq_false_iff, ne_eq, isOf_iff]

theorem find?_place_of_false (hr : p r = false) : (r.place rs).find? p = rs.find? p := by
  induction rs with
  | nil => simp [place, hr]
  | cons s rs ih =>
    simp only [place]
    split
    · rw [List.find?_cons, hr]
    · rw [List.find?_cons, List.find?_cons, ih]

end Row

namespace KeyTable

variable {t : KeyTable} {r : Row} {name other : String} {cell : Cell}

theorem ext {t t' : KeyTable} (h : t.rows = t'.rows) : t = t' := by
  cases t
  cases t'
  simp_all

theorem get?_eq_none_iff : t.get? name = none ↔ ∀ r ∈ t.rows, r.identity ≠ .text name := by
  simp only [get?, Option.map_eq_none_iff, List.find?_eq_none, Row.isOf_iff, ne_eq]

theorem contains_eq_false_iff : t.contains name = false ↔ t.get? name = none := by
  rw [contains, Option.isSome_eq_false_iff, Option.isNone_iff_eq_none]

theorem mem_of_get? (h : t.get? name = some cell) : ⟨.text name, cell⟩ ∈ t.rows := by
  obtain ⟨r, hr, rfl⟩ := Option.map_eq_some_iff.1 h
  have hname : r.identity = .text name := Row.isOf_iff.1 (List.find?_some hr)
  rw [← hname]
  exact List.mem_of_find?_eq_some hr

theorem get?_insert_of_ne (h : other ≠ name) : (t.insert name cell).get? other = t.get? other := by
  have hother : Row.isOf other ⟨.text name, cell⟩ = false :=
    Row.isOf_eq_false_iff.2 fun heq ↦ h (Cell.text.inj heq).symm
  simp only [get?, insert, add, Row.find?_place_of_false hother]

theorem get?_erase (t : KeyTable) (name other : String) :
    (t.erase name).get? other = if other = name then none else t.get? other := by
  simp only [get?, erase, List.find?_filter]
  split
  next h =>
    subst h
    rw [Option.map_eq_none_iff, List.find?_eq_none]
    simp
  next h =>
    have hsame (r : Row) : decide ((!r.isOf name) = true ∧ r.isOf other = true) = r.isOf other := by
      cases hr : r.isOf other with
      | false => simp
      | true =>
        have hne : r.isOf name = false :=
          Row.isOf_eq_false_iff.2 fun heq ↦ h (Cell.text.inj ((Row.isOf_iff.1 hr).symm.trans heq))
        rw [hne]
        rfl
    simp only [hsame]

theorem erase_of_not_contains (h : t.contains name = false) : t.erase name = t := by
  refine ext (List.filter_eq_self.2 fun r hr ↦ ?_)
  rw [Bool.not_eq_true', Row.isOf_eq_false_iff]
  exact get?_eq_none_iff.1 (contains_eq_false_iff.1 h) r hr

/-- Whether no name has two rows, as the primary key of the table keeps them. -/
def IsKeyed (t : KeyTable) : Prop := (t.rows.filterMap Row.name?).Nodup

theorem IsKeyed.mem_iff (h : t.IsKeyed) : ⟨.text name, cell⟩ ∈ t.rows ↔ t.get? name = some cell := by
  refine ⟨fun hmem ↦ ?_, mem_of_get?⟩
  obtain ⟨rows, hsorted⟩ := t
  change (rows.filterMap Row.name?).Nodup at h
  change _ ∈ rows at hmem
  change (rows.find? (Row.isOf name)).map Row.key = some cell
  clear hsorted
  induction rows with
  | nil => cases hmem
  | cons r rows ih =>
    have hself : Row.isOf name ⟨.text name, cell⟩ = true := Row.isOf_iff.2 rfl
    rcases List.mem_cons.1 hmem with rfl | hmem
    · rw [List.find?_cons, hself, Option.map_some]
    · cases hr : r.name? with
      | none =>
        rw [List.filterMap_cons_none hr] at h
        have hne : r.isOf name = false := by simp [Row.isOf, hr]
        rw [List.find?_cons, hne]
        exact ih h hmem
      | some other =>
        rw [List.filterMap_cons_some hr] at h
        obtain ⟨hnotin, h⟩ := List.nodup_cons.1 h
        have hname : name ∈ rows.filterMap Row.name? := List.mem_filterMap.2 ⟨_, hmem, rfl⟩
        have hne : r.isOf name = false := by
          rw [Row.isOf, hr, beq_eq_false_iff_ne, ne_eq, Option.some.injEq]
          rintro rfl
          exact hnotin hname
        rw [List.find?_cons, hne]
        exact ih h hmem

end KeyTable

namespace Catalog

variable {c : Catalog Cell} {name : String} {cell : Cell}

theorem filterMap_name? (es : List (String × Cell)) :
    (es.map fun e ↦ (⟨.text e.1, e.2⟩ : Row)).filterMap Row.name? = es.map Prod.fst := by
  rw [List.filterMap_map]
  exact congrFun List.filterMap_eq_map es

def table (c : Catalog Cell) : KeyTable where
  rows := c.entries.map fun e ↦ ⟨.text e.1, e.2⟩
  sorted := by
    rw [Row.Sorted, filterMap_name?, List.pairwise_map]
    exact c.sorted.imp Std.le_of_lt

theorem isKeyed_table (c : Catalog Cell) : c.table.IsKeyed := by
  rw [KeyTable.IsKeyed, table, filterMap_name?, List.Nodup, List.pairwise_map]
  exact c.sorted.imp Std.ne_of_lt

theorem mapM_name?_table (c : Catalog Cell) : c.table.rows.mapM Row.name? = some c.keys := by
  rw [table, List.mapM_map]
  exact List.mapM_pure (f := Prod.fst)

theorem get?_table (c : Catalog Cell) (name : String) : c.table.get? name = c.get? name := by
  cases h : c.get? name with
  | some cell =>
    rw [← c.isKeyed_table.mem_iff]
    exact List.mem_map.2 ⟨(name, cell), mem_entries_of_get? h, rfl⟩
  | none =>
    rw [KeyTable.get?_eq_none_iff]
    intro r hr hname
    obtain ⟨e, he, rfl⟩ := List.mem_map.1 hr
    obtain rfl : e.1 = name := Cell.text.inj hname
    rw [get?_eq_some_iff.2 he] at h
    cases h

theorem contains_table (c : Catalog Cell) (name : String) : c.table.contains name = c.contains name := by
  rw [KeyTable.contains, get?_table, contains]

theorem insert_table (h : c.contains name = false) (cell : Cell) :
    c.table.insert name cell = (c.insert name cell).table := by
  obtain ⟨es, hes⟩ := c
  have hne : ∀ e ∈ es, name ≠ e.1 := by
    intro e he heq
    have hget : get? ⟨es, hes⟩ name = some e.2 := get?_eq_some_iff.2 (heq ▸ he)
    rw [contains, hget] at h
    cases h
  refine KeyTable.ext ?_
  change Row.place ⟨.text name, cell⟩ (es.map fun e ↦ ⟨.text e.1, e.2⟩) =
    (place name cell es).map fun e ↦ ⟨.text e.1, e.2⟩
  clear h hes
  induction es with
  | nil => rfl
  | cons e es ih =>
    have hfollows : Row.follows ⟨.text e.1, e.2⟩ ⟨.text name, cell⟩ = decide (name < e.1) := rfl
    have hother := hne e List.mem_cons_self
    simp only [List.map_cons, Row.place, hfollows, decide_eq_true_eq, place, if_neg hother,
      ih fun e' he' ↦ hne e' (List.mem_cons_of_mem e he')]
    split
    · rfl
    · rfl

theorem erase_table (c : Catalog Cell) (name : String) : c.table.erase name = (c.erase name).table := by
  refine KeyTable.ext ?_
  simp only [KeyTable.erase, table, erase, List.filter_map]
  congr 1
  refine List.filter_congr fun e _ ↦ ?_
  change (!(some e.1 == some name)) = decide (e.1 ≠ name)
  cases hne : decide (e.1 = name) <;> simp_all

end Catalog

end Gatekeeper
