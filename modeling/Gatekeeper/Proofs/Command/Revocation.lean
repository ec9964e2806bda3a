import Gatekeeper.Proofs.Command.Successes
import Gatekeeper.Proofs.Service.Soundness

namespace Gatekeeper

open Disk

variable {σ : Type} {x : Site} {ks : List Nat} {m : JournalMode} {T T' : Database} {s : DatabaseSettings}
  {scene scene' : Scene} {c : Configuration} {w : Surroundings} {config : Option String} {name : String}

namespace CommandLine

theorem Progress.takeWord_long {p : Progress} {word : String} {c : Char} {cs : List Char}
    (h : word.toList = '-' :: '-' :: c :: cs) :
    p.takeWord word = p.takeLong (splitLong (c :: cs)).1 (splitLong (c :: cs)).2 := by
  rw [takeWord, h]
  rfl

theorem parse_revoke (name : String) :
    parse ["capability", "revoke", "--identity=" ++ name] = .ok (.command (.revoke name none)) := by
  have hword : ("--identity=" ++ name).toList = '-' :: '-' :: 'i' :: ("dentity=".toList ++ name.toList) := by
    rw [String.toList_append]
    rfl
  have hsplit : Progress.splitLong ('i' :: ("dentity=".toList ++ name.toList)) =
      ("identity", some (String.ofList name.toList)) := rfl
  obtain ⟨p, hp, hentries, htrailing, hfinish⟩ : ∃ p : Progress,
      ["capability", "revoke"].foldlM Progress.take { menu := mainMenu } = .ok p ∧ p.entries = [] ∧
        p.trailing = false ∧ (p.takeLong "identity" (some name) >>= Progress.finish) =
          .ok (some (.revoke name none), false) := ⟨_, rfl, rfl, rfl, rfl⟩
  have htake : p.take ("--identity=" ++ name) = p.takeLong "identity" (some name) := by
    rw [Progress.take, htrailing, hentries, List.lookup_nil, Progress.takeWord_long hword, hsplit, String.ofList_toList]
    rfl
  change ((["capability", "revoke"] ++ ["--identity=" ++ name]).foldlM Progress.take { menu := mainMenu } >>= _) = _
  have hone : ["--identity=" ++ name].foldlM Progress.take p = p.takeLong "identity" (some name) := by
    rw [List.foldlM_cons, htake]
    exact bind_pure _
  rw [List.foldlM_append, hp, ok_bind, hone, ← bind_assoc, hfinish]
  rfl

end CommandLine

namespace Command

structure Finds (c : Configuration) (s : DatabaseSettings) (x : Site) : Prop where
  settings : c.store.database? = some s
  fits : x.Fits s.journalMode
  leads : x.ways.Leads s.path x.place
  file : Site.NamesFile s.path
  wait : s.busyTimeoutMs ≤ DatabaseSettings.maxBusyTimeoutMs

/-- Whether something that is done over a connection ends in the same way at any connection to a database that holds
tables, and makes other tables of them. -/
def Makes {α : Type} (x : Site) (ks : List Nat) (m : JournalMode) (T U : Database) (a : Except CommandError α)
    (f : Connection → Disk → Except CommandError α × Disk) : Prop :=
  ∀ k d, x.Holds (k.session :: ks) m T d → ∃ d', f k d = (a, d') ∧ x.Holds (k.session :: ks) m U d'

theorem makes_list (hx : x.Fits m) : Makes x ks m T T (T.identities.mapError .list) fun connection d ↦
    let (r, d) := connection.identities d
    (r.mapError .list, d) := by
  intro k d hk
  obtain ⟨d', hask, hready⟩ := Connection.ask_holds hk hx List.mem_cons_self Database.identities
  exact ⟨d', by simp only [Connection.identities, hask], hready.holds⟩

theorem makes_revoke {i : Identity} {revoked : Bool} (hx : x.Fits m) (hrevoke : T.revoke i = .ok (revoked, T')) :
    Makes x ks m T T' (.ok revoked) fun connection d ↦
      let (r, d) := connection.revoke d i
      (r.mapError .revoke, d) := by
  intro k d hk
  obtain ⟨d', hdone, hd'⟩ := Connection.revoke_holds hk hx List.mem_cons_self i
  rw [hrevoke] at hdone hd'
  exact ⟨d', by simp only [hdone]; rfl, hd'⟩

theorem withDatabase_holds {α : Type} {a : Except CommandError α}
    {f : Connection → Disk → Except CommandError α × Disk} (hc : Finds c s x) (hx : x.Fits m)
    (hd : x.Holds ks m T scene.disk) (hT : T.prepare = .ok none) (hf : Makes x ks s.journalMode T T' a f) :
    (∃ d', withDatabase c scene f = (a, { scene with disk := d' }) ∧ x.Holds ks s.journalMode T' d') ∨
      m ≠ s.journalMode ∧ ∃ e d', withDatabase c scene f = (.error e, { scene with disk := d' }) := by
  have hnew : scene.disk.opened ∉ ks := fun hk ↦ Nat.lt_irrefl _ (hd.lodges.below _ hk)
  rcases Connection.openDatabase_cases hd hx hc.fits hc.leads hc.file hc.wait with
    ⟨tables?, d₁, hprepare, hopen, h₁⟩ | ⟨e, m', d₁, he, hopen, -, -⟩
  · cases hT.symm.trans hprepare
    obtain ⟨d₂, hdone, h₂⟩ := hf ⟨scene.disk.opened⟩ d₁ h₁
    refine .inl ⟨Connection.close ⟨scene.disk.opened⟩ d₂, ?_, Connection.holds_of_close h₂ hnew⟩
    simp only [withDatabase, openStore, hc.settings, hopen, hdone]
  · refine .inr ⟨?_, .openStore e, d₁, ?_⟩
    · rcases he with ⟨-, hm, hs, -⟩ | hprepare
      · rw [hm, hs]
        decide
      · cases hT.symm.trans hprepare
    · simp only [withDatabase, openStore, hc.settings, hopen]

theorem runList_holds (hload : loadConfiguration w config scene = .ok c) (hc : Finds c s x) (hx : x.Fits m)
    (hd : x.Holds ks m T scene.disk) (hT : T.prepare = .ok none) (hrun : runList w config scene = (.ok (), scene')) :
    ∃ is, T.identities = .ok is ∧ x.Holds ks s.journalMode T scene'.disk ∧ scene'.output =
      scene.output ++ ((Json.object [("identities", .array (is.map Identity.toJson))]).pretty ++ "\n") := by
  unfold runList at hrun
  rw [hload] at hrun
  rcases withDatabase_holds hc hx hd hT (makes_list hc.fits) with ⟨d', hwith, hd'⟩ | ⟨-, e, d', hwith⟩
  · simp only [hwith] at hrun
    cases his : T.identities with
    | error e =>
      rw [his] at hrun
      cases hrun
    | ok is =>
      rw [his] at hrun
      obtain ⟨-, rfl⟩ := printJson_eq_ok_iff.1 hrun
      exact ⟨is, rfl, hd', rfl⟩
  · simp only [hwith] at hrun
    cases hrun

theorem runRevoke_holds {revoked : Bool} (hload : loadConfiguration w config scene = .ok c)
    (hprint : w.outputFull = false) (hc : Finds c s x) (hd : x.Holds ks s.journalMode T scene.disk)
    (hT : T.prepare = .ok none) (hblank : (Text.trim name).isEmpty = false)
    (hrevoke : T.revoke ⟨Text.trim name⟩ = .ok (revoked, T')) :
    ∃ d', x.Holds ks s.journalMode T' d' ∧ runRevoke w name config scene = (.ok (), { scene with
      disk := d'
      output := scene.output ++ ((Json.object [("identity", .string (Text.trim name)),
        ("revoked", .bool revoked)]).pretty ++ "\n") }) := by
  have htyped : Identity.typed name = .ok ⟨Text.trim name⟩ := Identity.typed_eq_ok_iff.2 ⟨hblank, rfl⟩
  rcases withDatabase_holds hc hc.fits hd hT (makes_revoke hc.fits hrevoke) with ⟨d', hwith, hd'⟩ | ⟨hm, -⟩
  · refine ⟨d', hd', ?_⟩
    unfold runRevoke
    simp only [hload, htyped, hwith]
    exact printJson_of_working hprint _ _
  · exact absurd rfl hm

theorem opened_of_runList (hload : loadConfiguration w config scene = .ok c)
    (hrun : runList w config scene = (.ok (), scene')) : ∃ s k d is, c.store.database? = some s ∧
      Connection.openDatabase scene.disk s = (.opened k, d) ∧ (k.identities d).1 = .ok is ∧ scene'.output =
        scene.output ++ ((Json.object [("identities", .array (is.map Identity.toJson))]).pretty ++ "\n") := by
  unfold runList at hrun
  rw [hload] at hrun
  dsimp only at hrun
  split at hrun
  · cases hrun
  next is scene₁ hwith =>
    obtain ⟨s, k, d, d', hs, hopen, hlisted, rfl⟩ := withDatabase_eq_ok_iff.1 hwith
    obtain ⟨-, rfl⟩ := printJson_eq_ok_iff.1 hrun
    exact ⟨s, k, d, is, hs, hopen, mapError_eq_ok_iff.1 (congrArg Prod.fst hlisted), rfl⟩

theorem runList_clear (hload : loadConfiguration w config scene = .ok c) (hc : c.store.database? = some s)
    (hp : Address.IsPlain s.path) (hd : scene.disk.Clear s.path)
    (hrun : runList w config scene = (.ok (), scene')) : scene'.output =
      scene.output ++ ((Json.object [("identities", .array [])]).pretty ++ "\n") := by
  obtain ⟨s', k, d, is, hs', hopen, hlisted, hprinted⟩ := opened_of_runList hload hrun
  obtain rfl : s = s' := Option.some.inj (hc.symm.trans hs')
  obtain ⟨x, hx, -, -, hholds⟩ := Connection.openDatabase_clear hp hd hopen
  obtain ⟨d', hask, -⟩ := Connection.ask_holds hholds hx List.mem_cons_self Database.identities
  rw [Connection.identities, hask] at hlisted
  obtain rfl : [] = is := Except.ok.inj hlisted
  exact hprinted

end Command

namespace Database

theorem Sound.revoke_eq (h : T.Sound) (i : Identity) : ∃ rows : List (String × Cell),
    T.contents? = some ⟨rows, [1]⟩ ∧ T.identities = .ok (rows.map fun row ↦ ⟨row.1⟩) ∧
    ∃ T', T.revoke i = .ok (decide (i.name ∈ rows.map Prod.fst), T') ∧
      T'.contents? = some ⟨rows.filter fun row ↦ row.1 ≠ i.name, [1]⟩ := by
  obtain ⟨hversion, c, hkeys, -⟩ := h
  obtain rfl : T = ⟨some [.integer 1], some c.table⟩ := by rw [← hversion, ← hkeys]
  have hcontains : decide (i.name ∈ c.entries.map Prod.fst) = c.table.contains i.name := by
    rw [Bool.eq_iff_iff, decide_eq_true_eq, Catalog.contains_table]
    exact Catalog.mem_keys_iff
  refine ⟨c.entries, contents?_table c, ?_, _, revoke_eq_ok_iff.2 ⟨c.table, rfl, hcontains, rfl⟩, ?_⟩
  · rw [identities_of_names rfl c.mapM_name?_table, Catalog.keys, List.map_map]
    rfl
  · rw [Catalog.erase_table]
    exact contents?_table (c.erase i.name)

theorem Sound.not_blank {rows : List (String × Cell)} {versions : List Int} (h : T.Sound)
    (hrows : T.contents? = some ⟨rows, versions⟩) (hname : name ∈ rows.map Prod.fst) :
    (Text.trim name).isEmpty = false := by
  obtain ⟨contents, hcontents, hsound⟩ := h.contents
  obtain rfl := Option.some.inj (hcontents.symm.trans hrows)
  obtain ⟨row, hrow, rfl⟩ := List.mem_map.1 hname
  simpa using (hsound.rows row hrow).named

end Database

def Lists (output name : String) : Prop :=
  ∃ names : List String, Json.parse output = .ok (.object [("identities", .array (names.map .string))]) ∧ name ∈ names

theorem Chore.portable_listed (names : List String) :
    (Json.object [("identities", .array (names.map .string))]).Portable where
  exact := ⟨trivial, ⟨trivial, Json.allItems_iff.2 (by simp [Json.All, Json.IsExact])⟩, trivial⟩
  ordered := ⟨List.pairwise_singleton _ _, ⟨trivial, Json.allItems_iff.2 (by simp [Json.All, Json.IsOrdered])⟩, trivial⟩
  shallow := by
    have hdepth : Json.depthItems (names.map .string) ≤ 0 := Json.depthItems_le_iff.2 (by simp [Json.depth])
    simp only [Json.depth, Json.depthFields, Json.maxDepth]
    omega

theorem lists_pretty_iff {names : List String} :
    Lists ((Json.object [("identities", .array (names.map .string))]).pretty ++ "\n") name ↔ name ∈ names := by
  have hread := (Chore.portable_listed names).parse_pretty
  constructor
  · rintro ⟨names', hread', hname⟩
    have hsame := Except.ok.inj (hread.symm.trans hread')
    simp only [Json.object.injEq, List.cons.injEq, Prod.mk.injEq, Json.array.injEq, true_and, and_true] at hsame
    rwa [(List.map_inj_right fun _ _ ↦ Json.string.inj).1 hsame]
  · intro hname
    exact ⟨names, hread, hname⟩

theorem lists_identities_iff {is : List Identity} :
    Lists ("" ++ ((Json.object [("identities", .array (is.map Identity.toJson))]).pretty ++ "\n")) name ↔
      name ∈ is.map Identity.name := by
  have hnames : is.map Identity.toJson = (is.map Identity.name).map .string := by
    rw [List.map_map]
    rfl
  rw [String.empty_append, hnames, lists_pretty_iff]

/-- Whether connections and a disk are what has become of a database that was not there, or empty, by openings,
actions over the connections and closings. -/
def Handles.IsReached (path : String) (t : Handles) : Prop :=
  ∃ d mode moves, d.Clear path ∧ Handles.Proper path ⟨d, [], mode⟩ moves ∧
    t = (⟨d, [], mode⟩ : Handles).after moves

variable {t : Handles} {path : String}

theorem Handles.IsReached.cases (hp : Address.IsPlain path) (h : t.IsReached path) :
    (∃ x T, t.Stands x path T ∧ T.Sound) ∨ t.Idle path := by
  obtain ⟨d, mode, moves, hd, hproper, rfl⟩ := h
  have hidle : Idle ⟨d, [], mode⟩ path := ⟨rfl, hd⟩
  rcases hidle.after (P := Database.Sound) hp Database.sound_founded (fun hT heffect ↦ heffect.sound hT) hproper with
    ⟨-, hstands⟩ | ⟨-, hidle⟩
  · exact .inl hstands
  · exact .inr hidle

namespace Errand

variable {modules : ModuleRegistry σ} {list revoke : Errand} {d : Disk}

theorem Reads.loads {e : Errand} (h : e.Reads c d) :
    Command.loadConfiguration e.around e.config { disk := { d with program := e.program } } = .ok c := by
  rw [Command.loadConfiguration, h.load]
  rfl

theorem run_eq_success_iff {e : Errand} : e.run modules d = (.success, scene') ↔
    e.chore.result e.around e.config { disk := { d with program := e.program } } = (.ok (), scene') :=
  Chore.run_eq_success_iff

theorem listed_of_isReached (hp : Address.IsPlain path) (h : t.IsReached path) (hc : c.store.database? = some s)
    (hpath : s.path = path) (hroom : t.disk.HasRoom path s.journalMode) (hlist : list.chore = .list)
    (hreads : list.Reads c t.disk) (hrun : list.run modules t.disk = (.success, scene))
    (hname : Lists scene.output name) : ∃ x T, t.Stands x path T ∧ T.Sound ∧ Command.Finds c s x ∧
      x.Holds (t.connections.map Connection.session) s.journalMode T scene.disk ∧
      ∃ rows : List (String × Cell), T.contents? = some ⟨rows, [1]⟩ ∧ name ∈ rows.map Prod.fst := by
  obtain ⟨program, w, config, chore⟩ := list
  obtain rfl : chore = .list := hlist
  subst hpath
  rw [run_eq_success_iff] at hrun
  obtain ⟨s', k, d, -, hs', hopen, -⟩ := Command.opened_of_runList hreads.loads hrun
  obtain rfl : s = s' := Option.some.inj (hc.symm.trans hs')
  rcases h.cases hp with ⟨x, T, hstands, hT⟩ | hidle
  · obtain ⟨m, hx, hholds⟩ := hstands.holds
    have hfinds : Command.Finds c s x := ⟨hc, hholds.fits hx hstands.leads hroom, hstands.leads,
      hstands.file, Connection.wait_of_openDatabase hopen⟩
    obtain ⟨is, his, hafter, hprinted⟩ :=
      Command.runList_holds hreads.loads hfinds hx (hholds.atWork program) hT.prepare hrun
    obtain ⟨rows, hcontents, hnames, -⟩ := hT.revoke_eq ⟨name⟩
    obtain rfl := Except.ok.inj (his.symm.trans hnames)
    rw [hprinted, lists_identities_iff, List.map_map] at hname
    exact ⟨x, T, hstands, hT, hfinds, hafter, rows, hcontents, hname⟩
  · have hprinted := Command.runList_clear hreads.loads hc hp (hidle.clear.atWork program) hrun
    rw [hprinted, String.empty_append] at hname
    have hnone : name ∈ ([] : List String) := lists_pretty_iff.1 hname
    exact absurd hnone List.not_mem_nil

/-- Revoking a name that was listed takes out, and reports, what stands under the name without the blanks around it.
That this is the listed row, and no other, is so exactly if there are none. -/
theorem revokes_without_blanks (modules : ModuleRegistry σ) (hp : Address.IsPlain path) (h : t.IsReached path)
    (hc : c.store.database? = some s) (hpath : s.path = path) (hroom : t.disk.HasRoom path s.journalMode)
    (hlist : list.chore = .list) (hreads : list.Reads c t.disk)
    (hrun : list.run modules t.disk = (.success, scene)) (hname : Lists scene.output name)
    (hrevoke : revoke.chore = .revoke name) (hreads' : revoke.Reads c scene.disk) :
    CommandLine.parse ["capability", "revoke", "--identity=" ++ name] = .ok (.command (revoke.chore.command none)) ∧
    ∃ rows : List (String × Cell), t.disk.contentsAt? path = some ⟨rows, [1]⟩ ∧
      scene.disk.contentsAt? path = some ⟨rows, [1]⟩ ∧ name ∈ rows.map Prod.fst ∧
      ∃ scene', revoke.run modules scene.disk = (.success, scene') ∧
        scene'.output = (Json.object [("identity", .string (Text.trim name)),
          ("revoked", .bool (decide (Text.trim name ∈ rows.map Prod.fst)))]).pretty ++ "\n" ∧
        scene'.disk.contentsAt? path = some ⟨rows.filter fun row ↦ row.1 ≠ Text.trim name, [1]⟩ ∧
        (Text.trim name = name ↔ Text.trim name ∈ rows.map Prod.fst ∧
          (rows.filter fun row ↦ row.1 ≠ Text.trim name) = rows.filter fun row ↦ row.1 ≠ name) := by
  obtain ⟨x, T, hstands, hT, hfinds, hholds, rows, hcontents, hmem⟩ :=
    listed_of_isReached hp h hc hpath hroom hlist hreads hrun hname
  obtain ⟨rows', hcontents', -, T', hrevoked, hafter⟩ := hT.revoke_eq ⟨Text.trim name⟩
  obtain rfl : rows = rows' := by
    cases hcontents.symm.trans hcontents'
    rfl
  obtain ⟨program, w, config, chore⟩ := revoke
  obtain rfl : chore = .revoke name := hrevoke
  obtain ⟨d', hd', hdone⟩ := Command.runRevoke_holds hreads'.loads hreads'.prints hfinds (hholds.atWork program)
    hT.prepare (hT.not_blank hcontents hmem) hrevoked
  have hat {d : Disk} {T : Database} (h : x.Holds (t.connections.map Connection.session) s.journalMode T d) :
      d.contentsAt? path = T.contents? := hpath ▸ contentsAt?_holds h hfinds.fits hfinds.leads hfinds.file
  refine ⟨CommandLine.parse_revoke name, rows, by rw [hstands.contentsAt?, hcontents],
    by rw [hat hholds, hcontents], hmem, _, run_eq_success_iff.2 hdone, String.empty_append,
    by rw [hat hd', hafter], ?_⟩
  constructor
  · intro htrim
    rw [htrim]
    exact ⟨hmem, rfl⟩
  · rintro ⟨-, hsame⟩
    -- The listed row would be left, if the name that is looked for were another one.
    obtain ⟨row, hrow, rfl⟩ := List.mem_map.1 hmem
    refine Decidable.byContradiction fun htrim ↦ ?_
    have hleft : row ∈ rows.filter fun r ↦ r.1 ≠ Text.trim row.1 :=
      List.mem_filter.2 ⟨hrow, by simpa using Ne.symm htrim⟩
    rw [hsame] at hleft
    simpa using (List.mem_filter.1 hleft).2

end Errand

namespace ByHand

def moves (names : List String) : List Handles.Move :=
  .enter 0 { path := "k.db" } :: (names.map fun name ↦ .act ⟨0⟩ (.insert ⟨name⟩ key)) ++ [.leave ⟨0⟩]

def stored (names : List String) : Handles := (⟨disk "k.db", [], .wal⟩ : Handles).after (moves names)

def listed (names : List String) : Disk := after .list (stored names).disk

theorem reached (names : List String) (h : Handles.Proper "k.db" ⟨disk "k.db", [], .wal⟩ (moves names)) :
    (stored names).IsReached "k.db" :=
  ⟨_, _, _, clear_disk, h, rfl⟩

theorem run_eq_of_success {chore : Chore} (h : (run chore d).1 = .success) :
    (errand chore).run ModuleRegistry.builtin d = (.success, (run chore d).2) := by
  rw [← h]
  rfl

set_option maxRecDepth 20000 in
theorem runs_spaced :
    (Handles.Proper "k.db" ⟨disk "k.db", [], .wal⟩ (moves [" a ", "a"]) ∧
      (stored [" a ", "a"]).disk.HasRoom "k.db" .wal) ∧
    (isRead "k.db" (stored [" a ", "a"]).disk ∧
      Prints .list (stored [" a ", "a"]).disk (.object [("identities", .array ([" a ", "a"].map .string))])) ∧
    isRead "k.db" (listed [" a ", "a"]) ∧
    ((listed [" a ", "a"]).contentsAt? "k.db").map (·.rows) =
      some [(" a ", .blob key.bytes), ("a", .blob key.bytes)] := by
  decide +kernel

end ByHand

open ByHand in
/-- A grant is listed as ` a `. To revoke it by this name takes away the one of `a`, as which it is reported. -/
theorem Errand.revokes_without_blanks_by_hand : Address.IsPlain "k.db" ∧ (stored [" a ", "a"]).IsReached "k.db" ∧
    (configuration "k.db").store.database? = some { path := "k.db" } ∧
    (stored [" a ", "a"]).disk.HasRoom "k.db" .wal ∧
    (errand .list).Reads (configuration "k.db") (stored [" a ", "a"]).disk ∧
    Lists (ByHand.run .list (stored [" a ", "a"]).disk).2.output " a " ∧
    (errand (.revoke " a ")).Reads (configuration "k.db") (listed [" a ", "a"]) ∧
    (((listed [" a ", "a"]).contentsAt? "k.db").map (·.rows) =
      some [(" a ", .blob key.bytes), ("a", .blob key.bytes)]) ∧
    ∃ scene, (errand (.revoke " a ")).run ModuleRegistry.builtin (listed [" a ", "a"]) = (.success, scene) ∧
      scene.output = (revoked "a").pretty ++ "\n" ∧
      (scene.disk.contentsAt? "k.db").map (·.rows) = some [(" a ", .blob key.bytes)] := by
  obtain ⟨⟨hproper, hroom⟩, ⟨hread, hsuccess, hprinted⟩, hread', hrows⟩ := runs_spaced
  have hp : Address.IsPlain "k.db" := ⟨by decide, by decide⟩
  have hreached : (stored [" a ", "a"]).IsReached "k.db" := reached _ hproper
  have hstore : (configuration "k.db").store.database? = some { path := "k.db" } := rfl
  have hreads := reads hread .list
  have hreads' := reads hread' (.revoke " a ")
  have hlists : Lists (ByHand.run .list (stored [" a ", "a"]).disk).2.output " a " := by
    rw [hprinted, lists_pretty_iff]
    exact List.mem_cons_self
  have hresult := revokes_without_blanks ModuleRegistry.builtin hp hreached hstore rfl hroom rfl hreads
    (run_eq_of_success hsuccess) hlists rfl hreads'
  refine ⟨hp, hreached, hstore, hroom, hreads, hlists, hreads', hrows, ?_⟩
  obtain ⟨-, rows, -, hlisted, -, scene, hdone, houtput, hafter, -⟩ := hresult
  unfold listed after at hrows
  rw [hlisted] at hrows
  obtain rfl : rows = [(" a ", .blob key.bytes), ("a", .blob key.bytes)] := Option.some.inj hrows
  have htrim : Text.trim " a " = "a" := by decide
  rw [htrim] at houtput hafter
  have hfound : decide ("a" ∈ [(" a ", Cell.blob key.bytes), ("a", .blob key.bytes)].map Prod.fst) = true := by
    decide
  rw [hfound] at houtput
  refine ⟨scene, hdone, houtput, ?_⟩
  rw [hafter, Option.map_some]
  decide

end Gatekeeper
