import Gatekeeper.Proofs.Database.Handles

namespace Gatekeeper

open Disk Engine

namespace Disk

def tablesAt? (d : Disk) (path : String) : Option Database :=
  (d.visit path fun c d ↦ ((c.ask d .ok).1.toOption, (c.ask d .ok).2)).1

def contentsAt? (d : Disk) (path : String) : Option Database.Contents := (d.inspect path).1.map Prod.fst

variable {x : Site} {d : Disk} {ks : List Nat} {m : JournalMode} {T : Database} {path : String} {α : Type}

theorem visit_holds (T' : Database) (h : x.Holds ks m T d) (hleads : x.ways.Leads path x.place)
    (hfile : Site.NamesFile path) {P : Option α → Prop} {f : Connection → Disk → Option α × Disk}
    (hf : ∀ d', x.Holds (d.opened :: ks) m T d' →
      P (f ⟨d.opened⟩ d').1 ∧ x.Holds (d.opened :: ks) m T' (f ⟨d.opened⟩ d').2) :
    P (d.visit path f).1 ∧ x.Holds ks m T' (d.visit path f).2 := by
  obtain ⟨-, -, hplace⟩ := hleads.again h.lodges.ways h.lodges.node
  obtain ⟨d', hconnect, hd'⟩ := Connection.exists_run (h.connect hfile hplace)
  have hnew : d.opened ∉ ks := fun hk ↦ Nat.lt_irrefl _ (h.lodges.below _ hk)
  obtain ⟨hanswer, hleft⟩ := hf d' hd'
  simp only [visit, hconnect]
  exact ⟨hanswer, Connection.holds_of_close hleft hnew⟩

theorem tablesAt?_holds (h : x.Holds ks m T d) (hx : x.Fits m) (hleads : x.ways.Leads path x.place)
    (hfile : Site.NamesFile path) : d.tablesAt? path = some T := by
  refine (visit_holds T (P := fun a? ↦ a? = some T) h hleads hfile ?_).1
  intro d₁ h₁
  obtain ⟨d₂, hask, hready⟩ := Connection.ask_holds (c := ⟨d.opened⟩) h₁ hx List.mem_cons_self .ok
  rw [hask]
  exact ⟨rfl, hready.holds⟩

theorem contentsAt?_holds (h : x.Holds ks m T d) (hx : x.Fits m) (hleads : x.ways.Leads path x.place)
    (hfile : Site.NamesFile path) : d.contentsAt? path = T.contents? := by
  refine (visit_holds T (P := fun a? ↦ a?.map Prod.fst = T.contents?) h hleads hfile ?_).1
  intro d₁ h₁
  obtain ⟨d₂, hask, hready⟩ :=
    Connection.ask_holds (c := ⟨d.opened⟩) h₁ hx List.mem_cons_self fun b ↦ .ok b.contents?
  rw [hask]
  cases T.contents? with
  | none => exact ⟨rfl, hready.holds⟩
  | some contents => exact ⟨rfl, hready.holds⟩

def editing (f : Database → Database.Edited) : Connection.Transaction Nat := fun b ↦
  match f b with
  | some edited => .ok edited
  | none => .error (.engine .noSuchTable)

/-- An edit from outside is made on the tables that the database holds, whoever has it open. -/
theorem edit_holds (h : x.Holds ks m T d) (hx : x.Fits m) (hleads : x.ways.Leads path x.place)
    (hfile : Site.NamesFile path) (f : Database → Database.Edited) :
    (d.edit path f).1 = (f T).map Prod.fst ∧
      x.Holds ks m (((f T).bind Prod.snd).getD T) (d.edit path f).2 := by
  refine visit_holds _ (P := fun n? ↦ n? = (f T).map Prod.fst) h hleads hfile ?_
  intro d₁ h₁
  change (Connection.run ⟨d.opened⟩ d₁ (editing f)).1.toOption = (f T).map Prod.fst ∧
    x.Holds (d.opened :: ks) m (((f T).bind Prod.snd).getD T) (Connection.run ⟨d.opened⟩ d₁ (editing f)).2
  cases hT : f T with
  | none =>
    have hg : editing f T = .error (.engine .noSuchTable) := by simp only [editing, hT]
    obtain ⟨d₂, hrun, h₂⟩ := Connection.run_holds_of_error (c := ⟨d.opened⟩) h₁ hx List.mem_cons_self hg
    rw [hrun]
    exact ⟨rfl, h₂⟩
  | some edited =>
    obtain ⟨n, tables?⟩ := edited
    have hg : editing f T = .ok (n, tables?) := by simp only [editing, hT]
    obtain ⟨d₂, hrun, h₂⟩ := Connection.run_holds (c := ⟨d.opened⟩) h₁ hx List.mem_cons_self hg
    rw [hrun]
    exact ⟨rfl, h₂⟩

end Disk

end Gatekeeper
