import Gatekeeper.Proofs.Catalog
import Gatekeeper.Proofs.Database.Founded
import Gatekeeper.Proofs.Service.Vault

namespace Gatekeeper

open Disk

namespace Vault

scoped instance decidableEqExcept {ε α : Type} [DecidableEq ε] [DecidableEq α] : DecidableEq (Except ε α)
  | .error e, .error e' => decidable_of_iff (e = e') ⟨congrArg _, Except.error.inj⟩
  | .ok a, .ok a' => decidable_of_iff (a = a') ⟨congrArg _, Except.ok.inj⟩
  | .error _, .ok _ => .isFalse nofun
  | .ok _, .error _ => .isFalse nofun

inductive Action where
  | insert (i : Identity) (k : Key)
  | mint (i : Identity) (fresh : Key)
  | revoke (i : Identity)
  | lookup (i : Identity)
  | identities

inductive Reply where
  | inserted (r : Except StoreError Unit)
  | minted (r : Except StoreError Key)
  | revoked (r : Except StoreError Bool)
  | found (r : Except StoreError Key)
  | listed (r : Except StoreError (List Identity))
deriving DecidableEq

def identities (v : Vault) : Except StoreError (List Identity) × Vault :=
  match v.store with
  | .memory s => (.ok s.identities, v)
  | .database c => ofConnection c (c.identities v.disk)

def perform (v : Vault) : Action → Reply × Vault
  | .insert i k => (.inserted (v.insert i k).1, (v.insert i k).2)
  | .mint i fresh => (.minted (v.mint i fresh).1, (v.mint i fresh).2)
  | .revoke i => (.revoked (v.revoke i).1, (v.revoke i).2)
  | .lookup i => (.found (v.lookup i), v.consult (some i))
  | .identities => (.listed v.identities.1, v.identities.2)

def replies (v : Vault) : List Action → List Reply
  | [] => []
  | a :: as => (v.perform a).1 :: replies (v.perform a).2 as

/-- Whether the identity of an action may be given a key: it is not blank, and not too long. -/
def Action.IsAdmissible : Action → Prop
  | .insert i _ => ¬ (Text.trim i.name).isEmpty ∧ i.name.utf8ByteSize ≤ Database.maxIdentityBytes
  | .mint i _ => ¬ (Text.trim i.name).isEmpty ∧ i.name.utf8ByteSize ≤ Database.maxIdentityBytes
  | _ => True

instance : DecidablePred Action.IsAdmissible
  | .insert _ _ => inferInstanceAs (Decidable (_ ∧ _))
  | .mint _ _ => inferInstanceAs (Decidable (_ ∧ _))
  | .revoke _ => .isTrue trivial
  | .lookup _ => .isTrue trivial
  | .identities => .isTrue trivial

/-- Whether a list of identities is in the order of the bytes of their names, each once. -/
def Reply.IsOrdered : Reply → Prop
  | .listed (.ok is) => is.Pairwise fun i j ↦ Bytes.ofString i.name < Bytes.ofString j.name
  | _ => True

end Vault

/-- The connections that are open on a database, and the journal mode that they have in common. -/
structure Handles where
  disk : Disk
  connections : List Connection
  mode : JournalMode

namespace Handles

deriving instance DecidableEq for Opening

inductive Move where
  | act (c : Connection) (a : Vault.Action)
  | enter (program : Nat) (s : DatabaseSettings)
  | leave (c : Connection)

inductive Outcome where
  | replied (r : Vault.Reply)
  | entered (o : Opening)
  | left
deriving DecidableEq

def Move.action? : Move → Option Vault.Action
  | act _ a => some a
  | _ => none

def Outcome.reply? : Outcome → Option Vault.Reply
  | replied r => some r
  | _ => none

def opened? : Opening → Option Connection
  | .opened c => some c
  | _ => none

def step (t : Handles) : Move → Outcome × Handles
  | .act c a =>
    let done := (⟨.database c, t.disk⟩ : Vault).perform a
    (.replied done.1, { t with disk := done.2.disk })
  | .enter program s =>
    let done := Connection.openDatabase { t.disk with program } s
    (.entered done.1,
      { disk := done.2, connections := (opened? done.1).toList ++ t.connections, mode := s.journalMode })
  | .leave c => (.left, { t with disk := c.close t.disk, connections := t.connections.filter (· ≠ c) })

def outcomes (t : Handles) : List Move → List Outcome
  | [] => []
  | m :: ms => (t.step m).1 :: outcomes (t.step m).2 ms

def after (t : Handles) : List Move → Handles
  | [] => t
  | m :: ms => after (t.step m).2 ms

theorem sessions_without (cs : List Connection) (c : Connection) :
    (cs.filter (· ≠ c)).map Connection.session = (cs.map Connection.session).filter (· ≠ c.session) := by
  rw [List.filter_map]
  congr 1
  apply List.filter_congr
  intro b _
  cases b
  cases c
  simp

end Handles

theorem Database.eq_of_revoke {T T' : Database} {i : Identity} (h : T.revoke i = .ok (false, T')) : T' = T := by
  obtain ⟨table, hkeys, hcontains, rfl⟩ := revoke_eq_ok_iff.1 h
  rw [KeyTable.erase_of_not_contains hcontains.symm, ← hkeys]

/-- What an action is answered from tables, and what it makes of them. -/
def Database.perform (T : Database) : Vault.Action → Vault.Reply × Database
  | .insert i k => (.inserted (((T.insert i k).map fun _ ↦ ()).mapError DatabaseError.toStoreError),
      (T.insert i k).toOption.getD T)
  | .mint i fresh => (.minted (((T.insert i fresh).map fun _ ↦ fresh).mapError DatabaseError.toStoreError),
      (T.insert i fresh).toOption.getD T)
  | .revoke i => (.revoked (((T.revoke i).map Prod.fst).mapError DatabaseError.toStoreError),
      ((T.revoke i).toOption.map Prod.snd).getD T)
  | .lookup i => (.found (T.lookup i), T)
  | .identities => (.listed (T.identities.mapError DatabaseError.toStoreError), T)

namespace Connection

variable {x : Site} {d : Disk} {ks : List Nat} {m : JournalMode} {T : Database} {c : Connection}

theorem insert_holds (h : x.Holds ks m T d) (hx : x.Fits m) (hc : c.session ∈ ks) (i : Identity) (k : Key) :
    ∃ d', c.insert d i k = ((T.insert i k).map fun _ ↦ (), d') ∧
      x.Holds ks m ((T.insert i k).toOption.getD T) d' := by
  cases hcheck : Database.checkIdentity i with
  | error e =>
    -- A bad identity is refused before the database is touched.
    have hT : T.insert i k = .error e := by
      rw [Database.insert, hcheck]
      rfl
    exact ⟨d, by rw [insert, hcheck, hT]; rfl, by rwa [hT]⟩
  | ok u =>
    simp only [insert, hcheck]
    cases hT : T.insert i k with
    | error e =>
      apply run_holds_of_error h hx hc
      rw [hT]
      rfl
    | ok T' =>
      apply run_holds h hx hc
      rw [hT]
      rfl

theorem revoke_holds (h : x.Holds ks m T d) (hx : x.Fits m) (hc : c.session ∈ ks) (i : Identity) :
    ∃ d', c.revoke d i = ((T.revoke i).map Prod.fst, d') ∧
      x.Holds ks m (((T.revoke i).toOption.map Prod.snd).getD T) d' := by
  unfold Connection.revoke
  cases hT : T.revoke i with
  | error e =>
    apply run_holds_of_error h hx hc
    rw [hT]
    rfl
  | ok p =>
    obtain ⟨revoked, T'⟩ := p
    cases revoked with
    | true =>
      apply run_holds h hx hc
      rw [hT]
      rfl
    | false =>
      -- What was not there is not taken out, and nothing is written.
      obtain rfl := Database.eq_of_revoke hT
      change ∃ d', c.run d _ = (.ok false, d') ∧ x.Holds ks m ((none : Option Database).getD T') d'
      apply run_holds h hx hc
      rw [hT]
      rfl

end Connection

namespace Vault

variable {x : Site} {d : Disk} {ks : List Nat} {m : JournalMode} {T : Database} {c : Connection}

theorem perform_tables (h : x.Holds ks m T d) (hx : x.Fits m) (hc : c.session ∈ ks) (a : Action) :
    (perform ⟨.database c, d⟩ a).1 = (T.perform a).1 ∧
      x.Holds ks m (T.perform a).2 (perform ⟨.database c, d⟩ a).2.disk := by
  cases a with
  | insert i k =>
    obtain ⟨d', hinsert, hd'⟩ := Connection.insert_holds h hx hc i k
    simp only [perform, insert_database, hinsert, ofConnection, Database.perform]
    exact ⟨trivial, hd'⟩
  | mint i fresh =>
    obtain ⟨d', hinsert, hd'⟩ := Connection.insert_holds h hx hc i fresh
    simp only [perform, mint_eq_insert, insert_database, hinsert, ofConnection, Database.perform]
    refine ⟨?_, hd'⟩
    cases T.insert i fresh <;> rfl
  | revoke i =>
    obtain ⟨d', hrevoke, hd'⟩ := Connection.revoke_holds h hx hc i
    simp only [perform, revoke_database, hrevoke, ofConnection, Database.perform]
    exact ⟨trivial, hd'⟩
  | lookup i =>
    obtain ⟨d', hlookup, hd'⟩ := Connection.lookup_holds h hx hc i
    simp only [perform, Vault.lookup, ServedStore.lookup, consult, ServedStore.afterLookup, ServedStore.ask, hlookup,
      Database.perform]
    exact ⟨trivial, hd'⟩
  | identities =>
    obtain ⟨d', hlist, hready⟩ := Connection.ask_holds h hx hc Database.identities
    simp only [perform, identities, Connection.identities, hlist, ofConnection, Database.perform]
    exact ⟨trivial, hready.holds⟩

end Vault

end Gatekeeper
