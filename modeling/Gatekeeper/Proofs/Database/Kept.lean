import Gatekeeper.Proofs.Database.Admitted
import Gatekeeper.Proofs.Service.Actions

namespace Gatekeeper

open Disk

/-- Whether a connection is the only one to a database that holds tables. -/
def Connection.Reaches (c : Connection) (s : DatabaseSettings) (T : Database) (d : Disk) : Prop :=
  ∃ x : Site, x.Fits s.journalMode ∧ x.ways.Leads s.path x.place ∧ Site.NamesFile s.path ∧
    x.Holds [c.session] s.journalMode T d

/-- Whether every program that opens a database finds tables in it. -/
def Disk.Keeps (d : Disk) (s : DatabaseSettings) (T : Database) : Prop :=
  ∀ program, ∃ c d', Connection.openDatabase { d with program } s = (.opened c, d') ∧ c.Reaches s T d'

variable {d d' : Disk} {s : DatabaseSettings} {T : Database} {c : Connection} {i : Identity}

theorem Disk.Keeps.wait (h : d.Keeps s T) : s.busyTimeoutMs ≤ DatabaseSettings.maxBusyTimeoutMs := by
  obtain ⟨c, d', hopen, -⟩ := h 0
  exact Connection.wait_of_openDatabase hopen

theorem Disk.Clear.keeps (hd : d.Clear s.path) (hp : Address.IsPlain s.path)
    (h : Connection.openDatabase d s = (.opened c, d')) : d.Keeps s .founded := by
  intro program
  obtain ⟨c, d', hopen⟩ := hd.admits hp h program
  exact ⟨c, d', hopen, Connection.openDatabase_clear hp (hd.atWork program) hopen⟩

namespace Connection.Reaches

theorem insert (h : c.Reaches s T d) (i : Identity) (k : Key) :
    ∃ d', c.insert d i k = ((T.insert i k).map fun _ ↦ (), d') ∧
      c.Reaches s ((T.insert i k).toOption.getD T) d' := by
  obtain ⟨x, hx, hleads, hfile, hholds⟩ := h
  obtain ⟨d', hinsert, hd'⟩ := insert_holds hholds hx List.mem_cons_self i k
  exact ⟨d', hinsert, x, hx, hleads, hfile, hd'⟩

theorem mint (h : c.Reaches s T d) (i : Identity) (k : Key) :
    ∃ d', c.mint d i k = ((T.insert i k).map fun _ ↦ k, d') ∧
      c.Reaches s ((T.insert i k).toOption.getD T) d' := by
  obtain ⟨d', hinsert, hd'⟩ := h.insert i k
  refine ⟨d', ?_, hd'⟩
  rw [Connection.mint, hinsert]
  cases T.insert i k <;> rfl

theorem revoke (h : c.Reaches s T d) (i : Identity) :
    ∃ d', c.revoke d i = ((T.revoke i).map Prod.fst, d') ∧
      c.Reaches s (((T.revoke i).toOption.map Prod.snd).getD T) d' := by
  obtain ⟨x, hx, hleads, hfile, hholds⟩ := h
  obtain ⟨d', hrevoke, hd'⟩ := revoke_holds hholds hx List.mem_cons_self i
  exact ⟨d', hrevoke, x, hx, hleads, hfile, hd'⟩

theorem identities (h : c.Reaches s T d) :
    ∃ d', c.identities d = (T.identities, d') ∧ c.Reaches s T d' := by
  obtain ⟨x, hx, hleads, hfile, hholds⟩ := h
  obtain ⟨d', hask, hready⟩ := ask_holds hholds hx List.mem_cons_self Database.identities
  exact ⟨d', hask, x, hx, hleads, hfile, hready.holds⟩

theorem lookup (h : c.Reaches s T d) (i : Identity) : (c.lookup d i).1 = T.lookup i := by
  obtain ⟨x, hx, -, -, hholds⟩ := h
  obtain ⟨d', hlookup, -⟩ := lookup_holds hholds hx List.mem_cons_self i
  rw [hlookup]

theorem close (h : c.Reaches s T d) (hT : T.prepare = .ok none)
    (hwait : s.busyTimeoutMs ≤ DatabaseSettings.maxBusyTimeoutMs) : (c.close d).Keeps s T := by
  obtain ⟨x, hx, hleads, hfile, hholds⟩ := h
  have hclosed : x.Holds [] s.journalMode T (c.close d) := holds_of_close hholds List.not_mem_nil
  intro program
  obtain ⟨d', hopen, hd'⟩ :=
    openDatabase_holds (hclosed.atWork program) hx hx hleads hfile hT (.inl rfl) hwait
  exact ⟨_, d', hopen, x, hx, hleads, hfile, hd'⟩

end Connection.Reaches

end Gatekeeper
