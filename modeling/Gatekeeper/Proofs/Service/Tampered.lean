import Gatekeeper.Proofs.Database.Untrusted
import Gatekeeper.Proofs.Dispatch.Pipeline
import Gatekeeper.Proofs.Service.Keeping
import Gatekeeper.Server.Routes

namespace Gatekeeper

open Disk

variable {σ : Type}

namespace Handles

/-- A move of those that use a database, or an edit by a program that does not. -/
inductive Deed where
  | move (m : Move)
  | edit (program : Nat) (f : Database → Database.Edited)

variable {x : Site} {t : Handles} {T : Database} {path : String} {deeds : List Deed}

def undergo (path : String) (t : Handles) : Deed → Handles
  | .move m => (t.step m).2
  | .edit program f => { t with disk := (Disk.edit { t.disk with program } path f).2 }

theorem Stands.edit (h : t.Stands x path T) (program : Nat) (f : Database → Database.Edited) :
    (t.undergo path (.edit program f)).Stands x path (((f T).bind Prod.snd).getD T) := by
  obtain ⟨hleads, hfile, mode, hx, hholds⟩ := h
  exact ⟨hleads, hfile, mode, hx, (edit_holds (hholds.atWork program) hx hleads hfile f).2⟩

theorem Stands.tablesAt? (h : t.Stands x path T) : t.disk.tablesAt? path = some T := by
  obtain ⟨mode, hx, hholds⟩ := h.holds
  exact tablesAt?_holds hholds hx h.leads h.file

theorem Stands.lookup (h : t.Stands x path T) {c : Connection} (hc : c ∈ t.connections) (i : Identity) :
    (c.lookup t.disk i).1 = T.lookup i := by
  obtain ⟨mode, hx, hholds⟩ := h.holds
  obtain ⟨d', hlookup, -⟩ := Connection.lookup_holds hholds hx (List.mem_map_of_mem hc) i
  rw [hlookup]

end Handles

end Gatekeeper
