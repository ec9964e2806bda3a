import Gatekeeper.Operation.Counter
import Gatekeeper.Proofs.Command.Chores
import Gatekeeper.Proofs.Json.RoundTrip
import Gatekeeper.Proofs.Text.Order

namespace Gatekeeper

open Disk

variable {σ : Type}

inductive Notice where
  | minted (name : String) (k : Key)
  | revoked (name : String)

namespace Notice

/-- The key of an identity by what has been told of it, the latest first. -/
def held : List Notice → String → Option Key
  | [], _ => none
  | minted name k :: earlier, other => if other = name then some k else held earlier other
  | revoked name :: earlier, other => if other = name then none else held earlier other

end Notice

def Chore.notice? (v : Json) : Chore → Option Notice
  | mint _ => do
    let name ← (← v.field? "identity").string?
    let text ← (← v.field? "key").string?
    let k ← (Key.ofBase64 text).toOption
    some (.minted name k)
  | revoke _ => do
    let name ← (← v.field? "identity").string?
    let revoked ← (← v.field? "revoked").bool?
    if revoked then some (.revoked name) else none
  | list => none

structure Errand where
  program : Nat
  around : Surroundings
  config : Option String
  chore : Chore

namespace Errand

def run (modules : ModuleRegistry σ) (e : Errand) (d : Disk) : Command.Ending × Scene :=
  (e.chore.command e.config).run e.around modules { disk := { d with program := e.program } }

structure Reads (e : Errand) (c : Configuration) (d : Disk) : Prop where
  load : Configuration.load { d with program := e.program } e.around.configPath e.config = .ok c
  prints : e.around.outputFull = false

def notice? (modules : ModuleRegistry σ) (e : Errand) (d : Disk) : Option Notice :=
  let done := e.run modules d
  if done.1 = .success then (Json.parse done.2.output).toOption.bind e.chore.notice? else none

end Errand

/-- Runs one after the other that find a configuration, with what they have told. -/
inductive Errands (modules : ModuleRegistry σ) (c : Configuration) (d : Disk) : List Notice → Disk → Prop
  | start : Errands modules c d [] d
  | next {told : List Notice} {d' : Disk} (e : Errand) : Errands modules c d told d' → e.Reads c d' →
    Errands modules c d ((e.notice? modules d').toList ++ told) (e.run modules d').2.disk

def Settles (done : Command.Ending × Scene) (refused : Prop) (prints : Json → Prop) : Prop :=
  (done.1 = .failure ↔ refused) ∧
    (¬ refused → done.1 = .success ∧ ∃ v, prints v ∧ done.2.output = v.pretty ++ "\n")

def Errand.Answered (modules : ModuleRegistry σ) (e : Errand) (told : List Notice) (d : Disk) : Prop :=
  match e.chore with
  | .mint name =>
    Settles (e.run modules d)
      ((Text.trim name).isEmpty ∨ 512 < (Text.trim name).utf8ByteSize ∨ (Notice.held told (Text.trim name)).isSome)
      fun v ↦ v = Command.mintedDocument ⟨Text.trim name⟩ e.around.freshKey true
  | .revoke name =>
    Settles (e.run modules d) (Text.trim name).isEmpty fun v ↦ v = .object [("identity", .string (Text.trim name)),
      ("revoked", .bool (Notice.held told (Text.trim name)).isSome)]
  | .list =>
    Settles (e.run modules d) False fun v ↦ ∃ names : List String,
      v = .object [("identities", .array (names.map .string))] ∧
      names.Pairwise (fun a b ↦ Bytes.ofString a < Bytes.ofString b) ∧
      ∀ name, name ∈ names ↔ (Notice.held told name).isSome

variable {modules : ModuleRegistry σ} {c : Configuration} {s : DatabaseSettings} {d d₀ d' : Disk} {k₀ : Connection}
  {M : KeyStore} {e : Errand} {told : List Notice}

namespace Chore

theorem portable_minted {persisted : Bool} (i : Identity) (k : Key) :
    (Command.mintedDocument i k persisted).Portable where
  exact := by simp [Command.mintedDocument, Identity.toJson, Json.All, Json.AllFields, Json.IsExact]
  ordered := by
    simp only [Command.mintedDocument, Identity.toJson, Json.All, Json.AllFields, Json.isOrdered_object, List.map]
    simp only [Json.IsOrdered, and_true]
    decide
  shallow := (by decide : 1 ≤ 127)

theorem portable_revoked (name : String) (b : Bool) :
    (Json.object [("identity", .string name), ("revoked", .bool b)]).Portable where
  exact := by simp [Json.All, Json.AllFields, Json.IsExact]
  ordered := by
    simp only [Json.All, Json.AllFields, Json.isOrdered_object, List.map]
    simp only [Json.IsOrdered, and_true]
    decide
  shallow := (by decide : 1 ≤ 127)

theorem notice?_minted (name : String) (i : Identity) (k : Key) :
    (mint name).notice? (Command.mintedDocument i k true) = some (.minted i.name k) := by
  have hkey : (Command.mintedDocument i k true).field? "key" = some (.string k.toBase64) := rfl
  have hname : (Command.mintedDocument i k true).field? "identity" = some (.string i.name) := rfl
  simp only [notice?, hkey, hname, Json.string?, Key.ofBase64_toBase64, Except.toOption, Option.bind_eq_bind,
    Option.bind_some]

theorem notice?_revoked (name other : String) (b : Bool) :
    (revoke name).notice? (.object [("identity", .string other), ("revoked", .bool b)]) =
      if b then some (.revoked other) else none := rfl

theorem held_document (h : ∀ name, M.keys.get? name = Notice.held told name) (fresh : Key) (chore : Chore)
    (name : String) :
    (chore.keysAfter M fresh).keys.get? name =
      Notice.held (((Json.parse ((chore.document M fresh).pretty ++ "\n")).toOption.bind chore.notice?).toList ++ told)
        name := by
  cases chore with
  | mint other =>
    rw [document, (portable_minted _ _).parse_pretty, Except.toOption, Option.bind_some, notice?_minted]
    simp only [keysAfter, Catalog.get?_insert, h name, Option.toList_some, List.singleton_append, Notice.held]
  | revoke other =>
    rw [document, (portable_revoked _ _).parse_pretty, Except.toOption, Option.bind_some, notice?_revoked]
    cases hheld : M.keys.contains (Text.trim other) with
    | true =>
      simp only [keysAfter, Catalog.get?_erase, h name, if_true, Option.toList_some, List.singleton_append,
        Notice.held]
    | false =>
      simp only [keysAfter, Catalog.erase_of_not_contains hheld, h name, Bool.false_eq_true, if_false,
        Option.toList_none, List.nil_append]
  | list =>
    have hnone (v? : Option Json) : v?.bind list.notice? = none := by cases v? <;> rfl
    rw [hnone]
    exact h name

end Chore

theorem Errand.run_cases (modules : ModuleRegistry σ) (hc : c.store.database? = some s)
    (hd : d.Keeps s (.mirror M)) (he : e.Reads c d) :
    (e.chore.Refused M ∧ (e.run modules d).1 = .failure ∧ (e.run modules d).2.disk.Keeps s (.mirror M)) ∨
      ¬ e.chore.Refused M ∧ (e.run modules d).1 = .success ∧
        (e.run modules d).2.output = (e.chore.document M e.around.freshKey).pretty ++ "\n" ∧
        (e.run modules d).2.disk.Keeps s (.mirror (e.chore.keysAfter M e.around.freshKey)) := by
  obtain ⟨program, w, config, chore⟩ := e
  have hload : Command.loadConfiguration w config { disk := { d with program } } = .ok c := by
    rw [Command.loadConfiguration, he.load]
    rfl
  have hends : ∃ r, chore.Ends s M w.freshKey { disk := { d with program } } r ∧
      Errand.run modules ⟨program, w, config, chore⟩ d = Command.finish w (fun () ↦ .success) r := by
    cases chore with
    | mint name => exact ⟨_, Command.runMint_ends hload he.prints hc hd name, rfl⟩
    | revoke name => exact ⟨_, Command.runRevoke_ends hload he.prints hc hd name, rfl⟩
    | list => exact ⟨_, Command.runList_ends hload he.prints hc hd, rfl⟩
  obtain ⟨r, hr, hrun⟩ := hends
  rw [hrun]
  cases hr with
  | refused h hd' => exact .inl ⟨h, rfl, (Scene.disk_report _ w _).symm ▸ hd'⟩
  | done h hd' => exact .inr ⟨h, rfl, String.empty_append, hd'⟩

namespace Errands

theorem keeps (hc : c.store.database? = some s) (hp : Address.IsPlain s.path) (hd : d.Clear s.path)
    (hopen : Connection.openDatabase d s = (.opened k₀, d₀)) (h : Errands modules c d told d') :
    ∃ M : KeyStore, d'.Keeps s (.mirror M) ∧ ∀ name, M.keys.get? name = Notice.held told name := by
  induction h with
  | start => exact ⟨.empty, hd.keeps hp hopen, fun _ ↦ rfl⟩
  | @next told d' e _ he ih =>
    obtain ⟨M, hkeeps, hheld⟩ := ih
    rcases e.run_cases modules hc hkeeps he with ⟨-, hfailed, hd'⟩ | ⟨-, hdone, hprinted, hd'⟩
    · have hnone : e.notice? modules d' = none := by simp [Errand.notice?, hfailed]
      rw [hnone]
      exact ⟨M, hd', hheld⟩
    · refine ⟨_, hd', fun name ↦ ?_⟩
      rw [Errand.notice?, if_pos hdone, hprinted]
      exact Chore.held_document hheld e.around.freshKey e.chore name

theorem answered (hc : c.store.database? = some s) (hd : d.Keeps s (.mirror M))
    (hheld : ∀ name, M.keys.get? name = Notice.held told name) (he : e.Reads c d) :
    e.Answered modules told d := by
  have hcontains (name : String) : M.keys.contains name = (Notice.held told name).isSome := by
    rw [Catalog.contains, hheld]
  have hsettles {refused : Prop} {prints : Json → Prop} (hrefused : e.chore.Refused M ↔ refused)
      (hprints : prints (e.chore.document M e.around.freshKey)) : Settles (e.run modules d) refused prints := by
    rcases e.run_cases modules hc hd he with ⟨hr, hfailed, -⟩ | ⟨hr, hdone, hprinted, -⟩
    · exact ⟨iff_of_true hfailed (hrefused.1 hr), fun hn ↦ absurd (hrefused.1 hr) hn⟩
    · refine ⟨iff_of_false (by simp [hdone]) (mt hrefused.2 hr), fun _ ↦ ⟨hdone, _, hprints, hprinted⟩⟩
  obtain ⟨program, w, config, chore⟩ := e
  cases chore with
  | mint name => exact hsettles (by rw [Chore.Refused, hcontains]; rfl) rfl
  | revoke name => exact hsettles Iff.rfl (by rw [Chore.document, hcontains])
  | list =>
    refine hsettles Iff.rfl ⟨M.keys.keys, rfl, ?_, fun name ↦ ?_⟩
    · exact List.pairwise_map.2 (M.keys.sorted.imp Bytes.ofString_lt_ofString)
    · rw [Catalog.mem_keys_iff, hheld]

/-- Every run is answered by what the runs before it have told, and whoever opens the database later finds just
the keys that have been told of. -/
theorem keys_live_as_told (hc : c.store.database? = some s) (hp : Address.IsPlain s.path) (hd : d.Clear s.path)
    (hopen : Connection.openDatabase d s = (.opened k₀, d₀)) (h : Errands modules c d told d') :
    (∀ e : Errand, e.Reads c d' → e.Answered modules told d') ∧
      ∀ program, ∃ k d'', Connection.openDatabase { d' with program } s = (.opened k, d'') ∧
        ∀ i K, (k.lookup d'' i).1 = .ok K ↔ Notice.held told i.name = some K := by
  obtain ⟨M, hkeeps, hheld⟩ := h.keeps hc hp hd hopen
  refine ⟨fun e he ↦ answered hc hkeeps hheld he, fun program ↦ ?_⟩
  obtain ⟨k, d'', hopened, hk⟩ := hkeeps program
  refine ⟨k, d'', hopened, fun i K ↦ ?_⟩
  rw [hk.lookup, Database.lookup_mirror, ← hheld, KeyStore.lookup]
  cases M.keys.get? i.name <;> simp

end Errands

namespace ByHand

def configuration (path : String) : Configuration where
  service := { operations := some "guardian.operations.basic" }
  store := { kind := .sqlite, file := some (.text path) }

def disk (path : String) : Disk :=
  (createFile {} ["guardian.toml"] (.bytes (Bytes.ofString ("[guardian_service]\n" ++
    "operations = \"guardian.operations.basic\"\n[capability_store]\ntype = \"sqlite\"\npath = \"" ++ path ++
    "\"\n")))).2

def key : Key := ⟨List.replicate 32 7, rfl⟩

def errand (chore : Chore) : Errand where
  program := 1
  around := { freshKey := key, freshness := ⟨key, List.replicate 12 0, List.replicate 12 0, rfl, rfl⟩ }
  config := none
  chore

def run (chore : Chore) (d : Disk) : Command.Ending × Scene := (errand chore).run ModuleRegistry.builtin d

def after (chore : Chore) (d : Disk) : Disk := (run chore d).2.disk

def isRead (path : String) (d : Disk) : Bool :=
  (Configuration.load { d with program := 1 } none none).toOption.any fun c ↦
    c.service.operations == some "guardian.operations.basic" && c.service.settings.isEmpty && c.server == {} &&
      c.store == { kind := .sqlite, file := some (.text path) } && c.endpoints.isEmpty

theorem reads {path : String} (h : isRead path d = true) (chore : Chore) :
    (errand chore).Reads (configuration path) d := by
  refine ⟨?_, rfl⟩
  change Configuration.load { d with program := 1 } none none = _
  rw [isRead] at h
  cases hload : Configuration.load { d with program := 1 } none none with
  | error e => simp [hload, Except.toOption] at h
  | ok c =>
    obtain ⟨⟨operations, settings⟩, server, store, endpoints⟩ := c
    simp only [hload, Except.toOption, Option.any_some, Bool.and_eq_true, beq_iff_eq, List.isEmpty_iff] at h
    obtain ⟨⟨⟨⟨rfl, rfl⟩, rfl⟩, rfl⟩, rfl⟩ := h
    rfl

def Prints (chore : Chore) (d : Disk) (v : Json) : Prop :=
  (run chore d).1 = .success ∧ (run chore d).2.output = v.pretty ++ "\n"

instance (chore : Chore) (d : Disk) (v : Json) : Decidable (Prints chore d v) := inferInstanceAs (Decidable (_ ∧ _))

theorem notice?_of_prints {chore : Chore} {v : Json} {n : Notice} (h : Prints chore d v) (hv : v.Portable)
    (hn : chore.notice? v = some n) : (errand chore).notice? ModuleRegistry.builtin d = some n := by
  obtain ⟨hdone, hprinted⟩ := h
  rw [run] at hdone hprinted
  rw [Errand.notice?, if_pos hdone, hprinted, hv.parse_pretty, Except.toOption, Option.bind_some]
  exact hn

def minted (name : String) : Json := Command.mintedDocument ⟨name⟩ key true

theorem notice?_mint {name other : String} (h : Prints (.mint name) d (minted other)) :
    (errand (.mint name)).notice? ModuleRegistry.builtin d = some (.minted other key) :=
  notice?_of_prints h (Chore.portable_minted _ _) (Chore.notice?_minted _ _ _)

def revoked (name : String) : Json := .object [("identity", .string name), ("revoked", .bool true)]

theorem notice?_revoke {name other : String} (h : Prints (.revoke name) d (revoked other)) :
    (errand (.revoke name)).notice? ModuleRegistry.builtin d = some (.revoked other) :=
  notice?_of_prints h (Chore.portable_revoked _ _) rfl

theorem clear_disk : (disk "k.db").Clear "k.db" where
  wellFormed := wellFormed_empty.createFile ["guardian.toml"] _
  grounded := isGrounded_nil _
  file := by
    intro p n hp hn
    obtain rfl : p = ["k.db"] := Option.some.inj (hp.symm.trans rfl)
    cases hn

def afterMint : Disk := after (.mint " a ") (disk "k.db")

def afterMints : Disk := after (.mint "b") afterMint

def afterRevoke : Disk := after (.revoke "b ") afterMints

set_option maxRecDepth 20000 in
theorem runs_usual :
    (isRead "k.db" (disk "k.db") ∧ Prints (.mint " a ") (disk "k.db") (minted "a")) ∧
    (isRead "k.db" afterMint ∧ Prints (.mint "b") afterMint (minted "b")) ∧
    (isRead "k.db" afterMints ∧ Prints (.revoke "b ") afterMints (revoked "b")) ∧ isRead "k.db" afterRevoke := by
  decide +kernel

theorem next {path : String} {chore : Chore} {n : Option Notice}
    (h : Errands ModuleRegistry.builtin (configuration path) (disk path) told d) (hread : isRead path d = true)
    (hn : (errand chore).notice? ModuleRegistry.builtin d = n) :
    Errands ModuleRegistry.builtin (configuration path) (disk path) (n.toList ++ told) (after chore d) := by
  subst hn
  exact h.next (errand chore) (reads hread chore)

theorem errands_usual : Errands ModuleRegistry.builtin (configuration "k.db") (disk "k.db")
    [.revoked "b", .minted "b" key, .minted "a" key] afterRevoke := by
  obtain ⟨⟨hread₁, hprints₁⟩, ⟨hread₂, hprints₂⟩, ⟨hread₃, hprints₃⟩, -⟩ := runs_usual
  have h₁ : Errands _ _ _ _ afterMint := next .start hread₁ (notice?_mint hprints₁)
  have h₂ : Errands _ _ _ _ afterMints := next h₁ hread₂ (notice?_mint hprints₂)
  exact next h₂ hread₃ (notice?_revoke hprints₃)

theorem opens_usual : ∃ k d₀, Connection.openDatabase (disk "k.db") { path := "k.db" } = (.opened k, d₀) := by
  have hstore : (configuration "k.db").store.database? = some { path := "k.db" } := rfl
  have hopened : (Command.openStore (configuration "k.db") { disk := disk "k.db" }).1.toOption.isSome = true := by
    decide +kernel
  cases hopen : Connection.openDatabase (disk "k.db") { path := "k.db" } with
  | mk o d₀ =>
    simp only [Command.openStore, hstore, hopen] at hopened
    cases o with
    | opened k => exact ⟨k, d₀, rfl⟩
    | refused | breakdown => cases hopened

end ByHand

open ByHand in
theorem Errands.keys_live_as_told_by_hand :
    (configuration "k.db").store.database? = some { path := "k.db" } ∧ Address.IsPlain "k.db" ∧
      (disk "k.db").Clear "k.db" ∧
      (∃ k d₀, Connection.openDatabase (disk "k.db") { path := "k.db" } = (.opened k, d₀)) ∧
      Errands ModuleRegistry.builtin (configuration "k.db") (disk "k.db")
        [.revoked "b", .minted "b" key, .minted "a" key] afterRevoke ∧
      (errand .list).Answered ModuleRegistry.builtin [.revoked "b", .minted "b" key, .minted "a" key] afterRevoke ∧
      ∃ k d, Connection.openDatabase { afterRevoke with program := 2 } { path := "k.db" } = (.opened k, d) ∧
        (k.lookup d ⟨"a"⟩).1 = .ok key ∧ ∀ K, (k.lookup d ⟨"b"⟩).1 ≠ .ok K := by
  obtain ⟨k₀, d₀, hopen⟩ := opens_usual
  have hp : Address.IsPlain "k.db" := ⟨by decide, by decide⟩
  obtain ⟨hanswered, hlive⟩ := keys_live_as_told rfl hp clear_disk hopen errands_usual
  obtain ⟨k, d, hopened, hlookup⟩ := hlive 2
  refine ⟨rfl, hp, clear_disk, ⟨k₀, d₀, hopen⟩, errands_usual, ?_, k, d, hopened, ?_, fun K hK ↦ ?_⟩
  · exact hanswered (errand .list) (reads runs_usual.2.2.2 .list)
  · rw [hlookup]
    decide
  · rw [hlookup] at hK
    revert hK
    simp [Notice.held]

namespace ByHand

def Unanswered (path : String) : Prop :=
  (configuration path).store.database? = some { path } ∧ (disk path).read? path = none ∧
    ∃ told d, ∃ e : Errand, Errands ModuleRegistry.builtin (configuration path) (disk path) told d ∧
      e.Reads (configuration path) d ∧ ¬ e.Answered ModuleRegistry.builtin told d

theorem not_answered_of_failure (h : (run (.revoke "a") d).1 = .failure) :
    ¬ (errand (.revoke "a")).Answered ModuleRegistry.builtin told d := by
  intro hanswered
  have hblank : (Text.trim "a").isEmpty = true := hanswered.1.1 h
  revert hblank
  decide

theorem not_answered_of_success (hheld : (Notice.held told (Text.trim " a ")).isSome)
    (h : (run (.mint " a ") d).1 = .success) :
    ¬ (errand (.mint " a ")).Answered ModuleRegistry.builtin told d := by
  intro hanswered
  have hfailed : (run (.mint " a ") d).1 = .failure := hanswered.1.2 (.inr (.inr hheld))
  rw [h] at hfailed
  cases hfailed

/-- The parent of the database is a file. -/
theorem unanswered_file : Unanswered "guardian.toml/k.db" := by
  have hruns : isRead "guardian.toml/k.db" (disk "guardian.toml/k.db") ∧
      (run (.revoke "a") (disk "guardian.toml/k.db")).1 = .failure := by
    decide +kernel
  refine ⟨rfl, by decide, [], _, errand (.revoke "a"), .start, reads hruns.1 _, not_answered_of_failure hruns.2⟩

/-- The database is in memory, and each run has its own. -/
theorem unanswered_memory : Unanswered ":memory:" := by
  obtain ⟨⟨hread, hprints⟩, hread', hdone⟩ :
      (isRead ":memory:" (disk ":memory:") ∧ Prints (.mint " a ") (disk ":memory:") (minted "a")) ∧
      isRead ":memory:" (after (.mint " a ") (disk ":memory:")) ∧
        (run (.mint " a ") (after (.mint " a ") (disk ":memory:"))).1 = .success := by
    decide +kernel
  exact ⟨rfl, by decide, _, _, errand (.mint " a "), next .start hread (notice?_mint hprints), reads hread' _,
    not_answered_of_success (by decide) hdone⟩

/-- The path is an address of a file, but the directory that is made for it has the name of the whole path. -/
theorem unanswered_address : Unanswered "file:k.db?/../file:k.db?" := by
  obtain ⟨hread, hread', hfailed⟩ :
      isRead "file:k.db?/../file:k.db?" (disk "file:k.db?/../file:k.db?") ∧
      isRead "file:k.db?/../file:k.db?" (after (.mint " a ") (disk "file:k.db?/../file:k.db?")) ∧
        (run (.revoke "a") (after (.mint " a ") (disk "file:k.db?/../file:k.db?"))).1 = .failure := by
    decide +kernel
  exact ⟨rfl, by decide, _, _, errand (.revoke "a"), next .start hread rfl, reads hread' _,
    not_answered_of_failure hfailed⟩

end ByHand

open ByHand in
theorem Errands.keys_not_always_live : Unanswered "guardian.toml/k.db" ∧ Unanswered ":memory:" ∧
    Unanswered "file:k.db?/../file:k.db?" :=
  ⟨unanswered_file, unanswered_memory, unanswered_address⟩

end Gatekeeper
