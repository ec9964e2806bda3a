import Gatekeeper.Proofs.Database.Untrusted
import Gatekeeper.Proofs.Service.Keeping

namespace Gatekeeper

open Disk

namespace Database

/-- Whether a row names an identity that may be given a key, and holds the bytes of a key. -/
structure RowSound (row : String × Cell) : Prop where
  named : ¬ (Text.trim row.1).isEmpty
  short : row.1.utf8ByteSize ≤ 512
  keyed : ∃ bytes, row.2 = .blob bytes ∧ bytes.length = 32

structure Contents.Sound (c : Contents) : Prop where
  version : c.versions = [1]
  distinct : (c.rows.map Prod.fst).Nodup
  rows : ∀ row ∈ c.rows, RowSound row

structure Sound (T : Database) : Prop where
  version : T.versions = some [.integer 1]
  rows : ∃ c : Catalog Cell, T.keys = some c.table ∧ ∀ row ∈ c.entries, RowSound row

variable {T T' : Database} {i : Identity} {k : Key} {a : Vault.Action}

theorem sound_founded : founded.Sound := ⟨rfl, ∅, rfl, nofun⟩

theorem rowSound_of_check (hi : checkIdentity i = .ok ()) (k : Key) : RowSound (i.name, .blob k.bytes) := by
  unfold checkIdentity at hi
  split at hi
  · cases hi
  next hblank =>
    split at hi
    · cases hi
    next hlong => exact ⟨hblank, Nat.not_lt.1 hlong, k.bytes, rfl, k.length_eq⟩

theorem Sound.insert (h : T.Sound) (hT : T.insert i k = .ok T') : T'.Sound := by
  obtain ⟨hversion, c, hkeys, hrows⟩ := h
  obtain ⟨hi, table, hkeys', hnew, rfl⟩ := insert_eq_ok_iff.1 hT
  obtain rfl : c.table = table := Option.some.inj (hkeys.symm.trans hkeys')
  rw [Catalog.contains_table] at hnew
  refine ⟨hversion, _, congrArg some (Catalog.insert_table hnew _), ?_⟩
  intro row hrow
  rcases Catalog.mem_place hrow with rfl | hrow
  · exact rowSound_of_check hi k
  · exact hrows row hrow

theorem Sound.revoke {revoked : Bool} (h : T.Sound) (hT : T.revoke i = .ok (revoked, T')) : T'.Sound := by
  obtain ⟨hversion, c, hkeys, hrows⟩ := h
  obtain ⟨table, hkeys', -, rfl⟩ := revoke_eq_ok_iff.1 hT
  obtain rfl : c.table = table := Option.some.inj (hkeys.symm.trans hkeys')
  refine ⟨hversion, _, congrArg some (c.erase_table _), ?_⟩
  intro row hrow
  exact hrows row (List.mem_filter.1 hrow).1

theorem Sound.perform (h : T.Sound) (a : Vault.Action) : (T.perform a).2.Sound := by
  have hinsert (i : Identity) (k : Key) : ((T.insert i k).toOption.getD T).Sound := by
    cases hT : T.insert i k with
    | error e => exact h
    | ok T' => exact h.insert hT
  cases a with
  | insert i k => exact hinsert i k
  | mint i fresh => exact hinsert i fresh
  | revoke i =>
    cases hT : T.revoke i with
    | error e =>
      simp only [Database.perform, hT]
      exact h
    | ok p =>
      simp only [Database.perform, hT]
      exact h.revoke hT
  | lookup i => exact h
  | identities => exact h

theorem Sound.prepare (h : T.Sound) : T.prepare = .ok none := by
  rw [Database.prepare, h.version]
  rfl

theorem Sound.lookup (h : T.Sound) (i : Identity) :
    (∃ k, T.lookup i = .ok k) ∨ T.lookup i = .error (.notFound i.name) := by
  obtain ⟨-, c, hkeys, hrows⟩ := h
  have hget := c.get?_table i.name
  cases hrow : c.get? i.name with
  | none => exact .inr (lookup_of_no_row hkeys (hget.trans hrow))
  | some cell =>
    obtain ⟨-, -, bytes, hcell, hlength⟩ := hrows _ (Catalog.mem_entries_of_get? hrow)
    obtain rfl : cell = .blob bytes := hcell
    refine .inl ⟨⟨bytes, hlength⟩, ?_⟩
    rw [lookup_of_row hkeys (hget.trans hrow), keyOf_blob i ⟨bytes, hlength⟩]
    rfl

theorem contents?_table (c : Catalog Cell) :
    contents? ⟨some [.integer 1], some c.table⟩ = some ⟨c.entries, [1]⟩ := by
  have hrows : c.table.rows.mapM (fun r ↦ r.name?.map (·, r.key)) = some c.entries := by
    rw [Catalog.table, List.mapM_map]
    exact (List.mapM_pure (f := id)).trans (congrArg some (List.map_id _))
  simp only [contents?, Option.bind_eq_bind, Option.bind_some, hrows]
  rfl

theorem Sound.contents (h : T.Sound) : ∃ contents, T.contents? = some contents ∧ contents.Sound := by
  obtain ⟨hversion, c, hkeys, hrows⟩ := h
  obtain rfl : T = ⟨some [.integer 1], some c.table⟩ := by rw [← hversion, ← hkeys]
  refine ⟨⟨c.entries, [1]⟩, contents?_table c, rfl, ?_, hrows⟩
  rw [List.Nodup, List.pairwise_map]
  exact c.sorted.imp Std.ne_of_lt

end Database

def Vault.Reply.Changes : Reply → Prop
  | .inserted (.ok _) => True
  | .minted (.ok _) => True
  | .revoked (.ok true) => True
  | _ => False

def Handles.Outcome.Changes : Outcome → Prop
  | .replied r => r.Changes
  | _ => False

theorem Database.perform_of_not_changes {T : Database} {a : Vault.Action} (h : ¬ (T.perform a).1.Changes) :
    (T.perform a).2 = T := by
  have hinsert (i : Identity) (k : Key) (hno : ∀ T', T.insert i k ≠ .ok T') :
      (T.insert i k).toOption.getD T = T := by
    cases hT : T.insert i k with
    | error e => rfl
    | ok T' => exact absurd hT (hno T')
  cases a with
  | insert i k =>
    apply hinsert
    intro T' hT
    simp only [perform, hT] at h
    exact h trivial
  | mint i fresh =>
    apply hinsert
    intro T' hT
    simp only [perform, hT] at h
    exact h trivial
  | revoke i =>
    cases hT : T.revoke i with
    | error e => simp only [perform, hT, Except.toOption, Option.map_none, Option.getD_none]
    | ok p =>
      obtain ⟨revoked, T'⟩ := p
      simp only [perform, hT] at h ⊢
      cases revoked with
      | true => exact absurd trivial h
      | false => exact eq_of_revoke hT
  | lookup i => rfl
  | identities => rfl

namespace Handles

variable {x : Site} {t : Handles} {T T' : Database} {path : String} {m : Move} {o : Outcome}

theorem Effect.sound (h : Effect T m o T') (hT : T.Sound) : T'.Sound := by
  cases h with
  | act c a => exact hT.perform a
  | opened program s c hprepare =>
    -- Sound tables have their version, so that an opening makes none of them anew.
    rw [hT.prepare] at hprepare
    cases hprepare
    exact hT
  | locked program s => exact hT
  | refused program s hprepare => exact hT
  | left c => exact hT

/-- Of sound tables no opening is refused for their version, and no lookup fails for what they hold; and the
tables stay where the answer tells of no change. -/
theorem Effect.of_sound (h : Effect T m o T') (hT : T.Sound) :
    (∀ found, o ≠ .entered (.refused (.version found))) ∧
      (∀ r, o = .replied (.found r) → (∃ k, r = .ok k) ∨ ∃ name, r = .error (.notFound name)) ∧
      (¬ o.Changes → T' = T) := by
  cases h with
  | act c a =>
    refine ⟨nofun, ?_, Database.perform_of_not_changes⟩
    intro r hr
    cases a with
    | lookup i =>
      cases hr
      exact (hT.lookup i).imp_right fun h ↦ ⟨i.name, h⟩
    | _ => cases hr
  | opened program s c hprepare =>
    rw [hT.prepare] at hprepare
    cases hprepare
    exact ⟨nofun, nofun, fun _ ↦ rfl⟩
  | locked program s => exact ⟨nofun, nofun, fun _ ↦ rfl⟩
  | refused program s hprepare =>
    rw [hT.prepare] at hprepare
    cases hprepare
  | left c => exact ⟨nofun, nofun, fun _ ↦ rfl⟩

theorem Stands.contentsAt? (h : t.Stands x path T) : t.disk.contentsAt? path = T.contents? := by
  obtain ⟨mode, hx, hholds⟩ := h.holds
  exact contentsAt?_holds hholds hx h.leads h.file

/-- Whatever is done with a database whose file was not there or was empty, no opening is refused for its
version. Up to its first opening the file stays so; from then on its contents are sound, no lookup fails for
what it holds, and every row stays where the answer tells of no change. -/
theorem contents_sound {d : Disk} {path : String} {mode : JournalMode} {moves : List Move}
    (hp : Address.IsPlain path) (hd : d.Clear path) (hproper : Proper path ⟨d, [], mode⟩ moves) :
    let t := (⟨d, [], mode⟩ : Handles).after moves
    (∀ m found, t.Permits path m → (t.step m).1 ≠ .entered (.refused (.version found))) ∧
    ((¬∃ c, .entered (.opened c) ∈ (⟨d, [], mode⟩ : Handles).outcomes moves) → t.disk.Clear path) ∧
    ((∃ c, .entered (.opened c) ∈ (⟨d, [], mode⟩ : Handles).outcomes moves) →
      (∃ contents, t.disk.contentsAt? path = some contents ∧ contents.Sound) ∧
      ∀ m, t.Permits path m →
        (∀ r, (t.step m).1 = .replied (.found r) → (∃ k, r = .ok k) ∨ ∃ name, r = .error (.notFound name)) ∧
        (¬ (t.step m).1.Changes → (t.step m).2.disk.contentsAt? path = t.disk.contentsAt? path)) := by
  intro t
  have hidle : Idle ⟨d, [], mode⟩ path := ⟨rfl, hd⟩
  rcases hidle.after (P := Database.Sound) hp Database.sound_founded (fun hT heffect ↦ heffect.sound hT)
    hproper with ⟨hopened, x, T, hstands, hT⟩ | ⟨hnone, hidle⟩
  · refine ⟨?_, fun hnone ↦ absurd hopened hnone, fun _ ↦ ⟨?_, ?_⟩⟩
    · intro m found hm
      obtain ⟨T', heffect, -⟩ := hstands.step hm
      exact (heffect.of_sound hT).1 found
    · rw [hstands.contentsAt?]
      exact hT.contents
    · intro m hm
      obtain ⟨T', heffect, hstands'⟩ := hstands.step hm
      obtain ⟨-, hlookup, hsame⟩ := heffect.of_sound hT
      refine ⟨hlookup, fun hchanges ↦ ?_⟩
      rw [hstands'.contentsAt?, hstands.contentsAt?, hsame hchanges]
  · refine ⟨?_, fun _ ↦ hidle.clear, fun hopened ↦ absurd hopened hnone⟩
    intro m found hm houtcome
    rcases hidle.step hp hm with ⟨c, x, hopened, -⟩ | ⟨e, hrefused, he, -⟩
    · rw [hopened] at houtcome
      cases houtcome
    · rw [hrefused] at houtcome
      cases houtcome
      exact he found rfl

/-- A blank identity, an identity that has a key already, and an opening in another journal mode while a
connection holds on to the log are refused; then the database is closed and opened in that mode. -/
theorem contents_sound_refused :
    ∃ (k : Key) (moves : List Move) (contents : Database.Contents),
      Address.IsPlain "k.db" ∧ ({} : Disk).Clear "k.db" ∧ Proper "k.db" ⟨{}, [], .wal⟩ moves ∧
      (⟨{}, [], .wal⟩ : Handles).outcomes moves = [.entered (.opened ⟨0⟩),
        .replied (.inserted (.error (.backend "sqlite store invalid data: identity must be non-empty"))),
        .replied (.minted (.ok k)), .replied (.inserted (.error (.alreadyExists "a"))),
        .entered (.refused (.engine .locked)), .left, .entered (.opened ⟨2⟩)] ∧
      ((⟨{}, [], .wal⟩ : Handles).after moves).disk.contentsAt? "k.db" = some contents ∧ contents.Sound ∧
      contents.rows = [("a", .blob k.bytes)] := by
  let k : Key := ⟨List.replicate 32 7, rfl⟩
  let moves : List Move := [.enter 0 { path := "k.db" }, .act ⟨0⟩ (.insert ⟨" "⟩ k), .act ⟨0⟩ (.mint ⟨"a"⟩ k),
    .act ⟨0⟩ (.insert ⟨"a"⟩ k), .enter 1 { path := "k.db", journalMode := .delete }, .leave ⟨0⟩,
    .enter 1 { path := "k.db", journalMode := .delete }]
  have hp : Address.IsPlain "k.db" := ⟨by decide, by decide⟩
  have hproper : Proper "k.db" ⟨{}, [], .wal⟩ moves := by decide +kernel
  have houtcomes : (⟨{}, [], .wal⟩ : Handles).outcomes moves = [.entered (.opened ⟨0⟩),
      .replied (.inserted (.error (.backend "sqlite store invalid data: identity must be non-empty"))),
      .replied (.minted (.ok k)), .replied (.inserted (.error (.alreadyExists "a"))),
      .entered (.refused (.engine .locked)), .left, .entered (.opened ⟨2⟩)] := by
    decide +kernel
  have hrows : (((⟨{}, [], .wal⟩ : Handles).after moves).disk.contentsAt? "k.db").map (·.rows) =
      some [("a", .blob k.bytes)] := by
    decide +kernel
  obtain ⟨-, -, hopened⟩ := contents_sound hp clear_empty hproper
  obtain ⟨⟨contents, hcontents, hsound⟩, -⟩ := hopened ⟨⟨0⟩, by rw [houtcomes]; exact List.mem_cons_self⟩
  rw [hcontents] at hrows
  exact ⟨k, moves, contents, hp, clear_empty, hproper, houtcomes, hcontents, hsound, Option.some.inj hrows⟩

end Handles

end Gatekeeper
