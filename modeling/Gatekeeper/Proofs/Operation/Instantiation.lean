import Gatekeeper.Operation.Counter
import Gatekeeper.Proofs.Catalog
import Gatekeeper.Proofs.Results

namespace Gatekeeper

variable {σ : Type} {settings : HandlerSettings} {name : String} {table table' : HandlerTable σ}

namespace OperationModule

def construct (settings : HandlerSettings) (table : HandlerTable σ) (entry : String × Constructor σ) :
    Except (String × HandlerError) (HandlerTable σ) :=
  match entry.2 settings with
  | .ok h => .ok (table.insert entry.1 h)
  | .error e => .error (entry.1, e)

theorem construct_eq_ok_iff {entry : String × Constructor σ} :
    construct settings table entry = .ok table' ↔
      ∃ h, entry.2 settings = .ok h ∧ table' = table.insert entry.1 h := by
  unfold construct
  cases entry.2 settings <;> simp [eq_comm]

theorem instantiate_eq_foldlM (m : OperationModule σ) (settings : HandlerSettings) :
    m.instantiate settings = m.constructors.entries.foldlM (construct settings) ∅ := rfl

theorem foldlM_construct {es : List (String × Constructor σ)} (hes : es.Pairwise fun a b ↦ a.1 < b.1)
    (h : es.foldlM (construct settings) table = .ok table') :
    (es.lookup name = none → table'.get? name = table.get? name) ∧
      ∀ c, es.lookup name = some c → ∃ h, c settings = .ok h ∧ table'.get? name = some h := by
  induction es generalizing table with
  | nil =>
    cases h
    exact ⟨fun _ ↦ rfl, nofun⟩
  | cons e es ih =>
    obtain ⟨he, hes⟩ := List.pairwise_cons.1 hes
    obtain ⟨table₁, hfirst, hrest⟩ := bind_eq_ok_iff.1 (List.foldlM_cons.symm.trans h)
    obtain ⟨handler, hbuilt, rfl⟩ := construct_eq_ok_iff.1 hfirst
    obtain ⟨hkept, hset⟩ := ih hes hrest
    rw [Catalog.lookup_cons]
    split
    next heq =>
      -- The name comes once only, so what is built first is not replaced.
      have hlookup : es.lookup name = none := by
        refine List.lookup_eq_none_iff.2 fun d hd ↦ ?_
        have hlt : name < d.1 := heq ▸ he d hd
        have hne : name ≠ d.1 := fun hname ↦ String.lt_irrefl d.1 (hname ▸ hlt)
        simpa using hne
      have hget := hkept hlookup
      rw [Catalog.get?_insert, if_pos heq] at hget
      refine ⟨nofun, ?_⟩
      rintro c ⟨⟩
      exact ⟨handler, hbuilt, hget⟩
    next hne =>
      rw [Catalog.get?_insert, if_neg hne] at hkept
      exact ⟨hkept, hset⟩

theorem get?_of_instantiate {m : OperationModule σ} (h : m.instantiate settings = .ok table)
    (name : String) :
    (m.constructors.get? name = none → table.get? name = none) ∧
      ∀ c, m.constructors.get? name = some c → ∃ h, c settings = .ok h ∧ table.get? name = some h := by
  rw [instantiate_eq_foldlM] at h
  exact foldlM_construct m.constructors.sorted h

theorem get?_withOperation (m : OperationModule σ) (n : String) (c : Constructor σ) (name : String) :
    (m.withOperation n c).constructors.get? name =
      if name = n then some c else m.constructors.get? name := Catalog.get?_insert _ _ _ _

end OperationModule

namespace Operation

theorem Basic.get?_echo (h : Basic.operationModule.instantiate settings = .ok table) :
    table.get? "echo" = some Basic.echo := by
  have hname : Basic.operationModule.constructors.get? "echo" =
      some (fun _ ↦ .ok (Basic.echo : Handler σ)) := by
    simp [Basic.operationModule, OperationModule.get?_withOperation]
  obtain ⟨_, hbuilt, hget⟩ := (OperationModule.get?_of_instantiate h "echo").2 _ hname
  cases hbuilt
  exact hget

namespace Counter

variable {table : HandlerTable Counter}

theorem get?_constructors (name : String) : operationModule.constructors.get? name =
    if name = "get_value" then some (fun _ ↦ .ok current)
    else if name = "inc_value" then some fun settings ↦ (limit? settings).map increment
    else none := by
  rw [operationModule, OperationModule.get?_withOperation, OperationModule.get?_withOperation]
  rfl

theorem get?_of_instantiate (h : operationModule.instantiate settings = .ok table) :
    ∃ limit, limit? settings = .ok limit ∧ ∀ name, table.get? name =
      if name = "get_value" then some current
      else if name = "inc_value" then some (increment limit)
      else none := by
  have hget (name : String) := OperationModule.get?_of_instantiate h name
  have hname := get?_constructors
  obtain ⟨_, hbuilt, hincrement⟩ := (hget "inc_value").2 _ (by rw [hname]; rfl)
  obtain ⟨_, hquery, hcurrent⟩ := (hget "get_value").2 _ (by rw [hname]; rfl)
  cases hquery
  obtain ⟨limit, hlimit, rfl⟩ : ∃ limit, limit? settings = .ok limit ∧ increment limit = _ := by
    cases hl : limit? settings with
    | error e => simp [hl, Except.map] at hbuilt
    | ok limit =>
      rw [hl] at hbuilt
      exact ⟨limit, rfl, Except.ok.inj hbuilt⟩
  refine ⟨limit, hlimit, fun name ↦ ?_⟩
  split
  next heq => rw [heq, hcurrent]
  next hquery =>
    split
    next heq => rw [heq, hincrement]
    next hstep => exact (hget name).1 (by rw [hname, if_neg hquery, if_neg hstep])

end Counter

end Operation

end Gatekeeper
