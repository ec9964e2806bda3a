import Gatekeeper.Proofs.Command.Successes
import Gatekeeper.Proofs.Server.Startup

namespace Gatekeeper

variable {σ : Type} {c : Configuration} {entry : SeededKey} {i : Identity} {k : Key}

theorem SeededKey.decode_of_key (hname : entry.name ≠ "") (hk : Key.ofBase64 entry.key = .ok k) : entry.decode =
    if Limit.identifierBytes < entry.name.utf8ByteSize then .error .keyIdentityTooLong
    else .ok (⟨entry.name⟩, k) := by
  have hblank : (Text.trim entry.identity).isEmpty = false := by simpa [name] using hname
  simp only [decode, hblank, hk, Bool.false_eq_true, if_false]
  rfl

namespace Configuration

def withKey (c : Configuration) (entry : SeededKey) : Configuration :=
  { c with store := { c.store with keys := [entry] } }

theorem checked_eq_ok_iff {read : Configuration} : read.checked = .ok c ↔ read = c ∧ c.check = .ok () := by
  unfold checked
  constructor
  · intro h
    split at h
    next hcheck =>
      cases h
      exact ⟨rfl, hcheck⟩
    · cases h
  · rintro ⟨rfl, hcheck⟩
    rw [hcheck]

theorem check_of_ofToml {text : String} (h : ofToml text = .ok c) : c.check = .ok () := by
  unfold ofToml at h
  split at h
  · cases h
  · split at h
    · exact (checked_eq_ok_iff.1 h).2
    · cases h

theorem check_of_ofContent {content : Content} (h : ofContent content = .ok c) : c.check = .ok () := by
  unfold ofContent at h
  split at h
  · cases h
  · split at h
    · exact check_of_ofToml h
    · cases h

theorem check_of_load {d : Disk} {environment asked : Option String} (h : load d environment asked = .ok c) :
    c.check = .ok () := by
  obtain ⟨path, -, h⟩ := bind_eq_ok_iff.1 h
  split at h
  · cases h
  · split at h
    · exact check_of_ofContent h
    · cases h

theorem check_withKey (hcheck : c.check = .ok ()) (hkind : c.store.kind = .memory) (hname : entry.name ≠ "")
    (hk : Key.ofBase64 entry.key = .ok k) : (c.withKey entry).check =
      if Limit.identifierBytes < entry.name.utf8ByteSize then .error .keyIdentityTooLong else .ok () := by
  obtain ⟨hservice, hserver, hstore, hendpoints⟩ := check_eq_ok_iff.1 hcheck
  obtain ⟨hfile, -⟩ := (StoreSettings.check_memory_iff hkind).1 hstore
  have hkey : (c.withKey entry).store.check = SeededKey.checkAll [] [entry] := by
    have hfew : ¬ Limit.seededKeys < [entry].length := (by decide : ¬ 1024 < 1)
    simp only [withKey, StoreSettings.check, StoreSettings.checkKind, StoreSettings.path, hkind, hfile,
      Option.map_none, if_neg hfew]
  have hcheckAll : SeededKey.checkAll [] [entry] =
      if Limit.identifierBytes < entry.name.utf8ByteSize then .error .keyIdentityTooLong else .ok () := by
    rw [SeededKey.checkAll, SeededKey.decode_of_key hname hk]
    by_cases hlong : Limit.identifierBytes < entry.name.utf8ByteSize
    · rw [if_pos hlong, if_pos hlong]
    · rw [if_neg hlong, if_neg hlong]
      rfl
  simp only [check, hkey, hcheckAll]
  change (c.service.check >>= fun _ ↦ c.server.check >>= fun _ ↦ _ >>= fun _ ↦ c.checkEndpoints) = _
  rw [hservice, hserver, hendpoints, ok_bind, ok_bind]
  by_cases hlong : Limit.identifierBytes < entry.name.utf8ByteSize
  · rw [if_pos hlong]
    rfl
  · rw [if_neg hlong]
    rfl

theorem ofToml_withKey {text : String} (hcheck : c.check = .ok ()) (hkind : c.store.kind = .memory)
    (hname : entry.name ≠ "") (hk : Key.ofBase64 entry.key = .ok k)
    (hfits : text.utf8ByteSize ≤ Limit.configurationBytes) (htext : ofToml? text = some (c.withKey entry)) :
    ofToml text = if Limit.identifierBytes < entry.name.utf8ByteSize then .error (.invalid .keyIdentityTooLong)
      else .ok (c.withKey entry) := by
  rw [ofToml, if_neg (Nat.not_lt.2 hfits), htext]
  dsimp only
  rw [checked, check_withKey hcheck hkind hname hk]
  by_cases hlong : Limit.identifierBytes < entry.name.utf8ByteSize
  · rw [if_pos hlong, if_pos hlong]
  · rw [if_neg hlong, if_neg hlong]

end Configuration

namespace Server

def Started.holding (s : Started σ) (keys : KeyStore) : Started σ :=
  { s with server := { s.server with store := .memory keys } }

def holding (keys : KeyStore) (done : Except ServerError (Started σ) × Disk) : Except ServerError (Started σ) × Disk :=
  (done.1.map fun s ↦ s.holding keys, done.2)

/-- The store is only handed on when the rest is set up. -/
theorem startWith_holding (now : Nat) (c : Configuration) (modules : ModuleRegistry σ) (address : Net.SocketAddress)
    (before keys : KeyStore) (d : Disk) : startWith now c modules address (.memory keys) d =
      holding keys (startWith now c modules address (.memory before) d) := by
  unfold startWith
  cases EndpointRegistry.ofList c.endpointRecords with
  | error e => rfl
  | ok endpoints =>
    dsimp only
    rcases openSink c.server.audit d with ⟨e | audit, d'⟩
    · rfl
    · dsimp only
      cases Dispatcher.setUp c.service endpoints modules <;> rfl

/-- With one key added, a server starts as it did without, and holds that key. -/
theorem start_withKey (hcheck : c.check = .ok ()) (hcheck' : (c.withKey entry).check = .ok ())
    (hkind : c.store.kind = .memory) (hkeys : c.store.keys = []) (hentry : entry.decode = .ok (i, k)) (now : Nat)
    (modules : ModuleRegistry σ) (d : Disk) : start now (c.withKey entry) modules d =
      holding ⟨KeyStore.empty.keys.insert i.name k⟩ (start now c modules d) := by
  have haddress : addressOf (c.withKey entry) = addressOf c := by
    have hserver : (c.withKey entry).server = c.server := rfl
    rw [addressOf, addressOf, hcheck, hcheck', hserver]
  have hopen : openStore c d = (.ok (.memory .empty), d) := by
    simp only [openStore, hkind, hkeys]
    rfl
  have hopen' : openStore (c.withKey entry) d = (.ok (.memory ⟨KeyStore.empty.keys.insert i.name k⟩), d) := by
    have hseeded : seededStore [entry] = .ok ⟨KeyStore.empty.keys.insert i.name k⟩ := by
      simp only [seededStore, List.foldlM_cons, List.foldlM_nil, hentry]
      rfl
    simp only [openStore, Configuration.withKey, hkind, hseeded]
    rfl
  unfold start
  rw [haddress, hopen, hopen']
  cases addressOf c with
  | error e => rfl
  | ok address =>
    have hwith : startWith now (c.withKey entry) modules address (.memory ⟨KeyStore.empty.keys.insert i.name k⟩) d =
        holding ⟨KeyStore.empty.keys.insert i.name k⟩ (startWith now c modules address (.memory .empty) d) :=
      startWith_holding now c modules address .empty _ d
    dsimp only
    rw [hwith]
    rcases startWith now c modules address (.memory .empty) d with ⟨e | started, d'⟩
    · rfl
    · rfl

end Server

variable {τ : Type}

/-- How a server takes what was sealed for a draft: with the key that it has for the identity the envelope opens to
the draft and to nothing else, and what was typed is performed, unless its brackets are too deep or its numbers no
integers of 64 bits. -/
structure Server.Authenticates (s : Server τ) (draft : Draft) (f : Freshness) (r : Request) : Prop where
  authentic : ∃ p, draft.parameters = .ok p ∧ ∀ d, ∃ k, s.store.lookup d r.identity = .ok k ∧
    r.envelope.Holds k (Envelope.partsOf f (draft.payload p))
  performed {p : Parameters} {body : Bytes} : draft.parameters = .ok p → Json.AllFields Json.IsExact p →
    (Json.object p).depth ≤ 126 → r.IsSentAs body → ∀ now state d, (s.process now body state d).response =
      Server.frame (s.dispatcher.perform (draft.operation p) { consulted := some r.identity } state).response

theorem Server.authenticates {s : Server τ} {draft : Draft} {f : Freshness} {r : Request}
    (hr : draft.request f = .ok r) (hk : Key.ofBase64 draft.key = .ok k)
    (hlookup : ∀ d, s.store.lookup d r.identity = .ok k) : s.Authenticates draft f r := by
  obtain ⟨k', p, hk', -, hp, hpack⟩ := Draft.request_eq_ok_iff.1 hr
  obtain rfl : k = k' := Except.ok.inj (hk.symm.trans hk')
  constructor
  · exact ⟨p, hp, fun d ↦ ⟨k, hlookup d, Envelope.holds_of_pack hpack⟩⟩
  · intro p' body hp' hexact hdepth hbody now state d
    obtain rfl : p = p' := Except.ok.inj (hp.symm.trans hp')
    have hportable : (draft.payload p).Portable :=
      { exact := draft.exact_payload hexact
        ordered := draft.ordered_payload (Draft.tidy_parameters hp).ordered
        shallow := by
          rw [draft.depth_payload p]
          exact Nat.succ_le_succ hdepth }
    have hdone := s.dispatcher.dispatch_of_sealed state (Request.madeBy_of_isSentAs hbody) (hlookup d) hpack hportable
      (draft.writtenIn_payload p)
    rw [← hdone, process_eq]

theorem KeyStore.lookup_single_iff {i j : Identity} {k k' : Key} :
    KeyStore.lookup ⟨KeyStore.empty.keys.insert i.name k⟩ j = .ok k' ↔ j.name = i.name ∧ k' = k := by
  rw [lookup, Catalog.get?_insert]
  by_cases h : j.name = i.name
  · simp [h, eq_comm]
  · rw [if_neg h]
    simp [h, empty]

namespace Chore

/-- A key that is given out for a store in memory is printed as it can be added to the configuration. If its identity
has at most 512 bytes, the check accepts it, a server that starts with it is the one that would start without, but
finds that key for that identity and nothing else, and whatever is sealed with the key under the identity as it was
typed is taken as authentic. If it has more, the check refuses it. -/
theorem shown_key_serves {w : Surroundings} {config : Option String} {name : String} {scene scene' : Scene}
    (modules : ModuleRegistry σ) (hload : Command.loadConfiguration w config scene = .ok c)
    (hkind : c.store.kind = .memory) (hkeys : c.store.keys = [])
    (hrun : ((mint name).command config).run w modules scene = (.success, scene')) :
    ∃ entry : SeededKey, entry.identity = Text.trim name ∧ entry.key = w.freshKey.toBase64 ∧
      (∃ v, scene'.output = scene.output ++ (v.pretty ++ "\n") ∧ Json.parse (v.pretty ++ "\n") = .ok v ∧
        SeededKey.ofRecord? v = some entry) ∧
      scene'.errors = scene.errors ++ [Command.memoryNotice] ∧
      ((c.withKey entry).check = if 512 < entry.identity.utf8ByteSize then .error .keyIdentityTooLong else .ok ()) ∧
      (∀ text, text.utf8ByteSize ≤ 1048576 → Configuration.ofToml? text = some (c.withKey entry) →
        Configuration.ofToml text = if 512 < entry.identity.utf8ByteSize
          then .error (.invalid .keyIdentityTooLong) else .ok (c.withKey entry)) ∧
      (entry.identity.utf8ByteSize ≤ 512 → ∃ keys : KeyStore,
        (∀ (now : Nat) (services : ModuleRegistry τ) d,
          Server.start now (c.withKey entry) services d = Server.holding keys (Server.start now c services d)) ∧
        ∀ now (services : ModuleRegistry τ) d started d',
          Server.start now (c.withKey entry) services d = (.ok started, d') →
          (∀ d i k, started.server.store.lookup d i = .ok k ↔ i.name = entry.identity ∧ k = w.freshKey) ∧
          ∀ draft f r, draft.identity = name → draft.key = entry.key → draft.request f = .ok r →
            r.identity = ⟨entry.identity⟩ ∧ started.server.Authenticates draft f r) := by
  have hcheck : c.check = .ok () := Configuration.check_of_load (mapError_eq_ok_iff.1 hload)
  have hstore : c.store.database? = none := by simp [StoreSettings.database?, hkind]
  obtain ⟨hblank, -, -, rfl⟩ := (Command.runMint_eq_ok_iff_of_memory hload hstore).1 (run_eq_success_iff.1 hrun)
  let entry : SeededKey := ⟨Text.trim name, w.freshKey.toBase64⟩
  have hname : entry.name = Text.trim name := Text.trim_trim name
  have hne : entry.name ≠ "" := by
    intro hempty
    rw [← hname, hempty] at hblank
    cases hblank
  have hkey : Key.ofBase64 entry.key = .ok w.freshKey := w.freshKey.ofBase64_toBase64
  have hchecked := Configuration.check_withKey hcheck hkind hne hkey
  refine ⟨entry, rfl, rfl, ⟨_, rfl, (portable_minted _ _).parse_pretty, rfl⟩, rfl, ?_, ?_, ?_⟩
  · rwa [hname] at hchecked
  · intro text hfits htext
    have hread := Configuration.ofToml_withKey hcheck hkind hne hkey hfits htext
    rwa [hname] at hread
  · intro hshort
    have hfits : ¬ Limit.identifierBytes < (Text.trim name).utf8ByteSize := Nat.not_lt.2 hshort
    have hentry : entry.decode = .ok (⟨Text.trim name⟩, w.freshKey) := by
      rw [SeededKey.decode_of_key hne hkey, hname, if_neg hfits]
    rw [hname, if_neg hfits] at hchecked
    have hstarts (now : Nat) (services : ModuleRegistry τ) (d : Disk) :=
      Server.start_withKey hcheck hchecked hkind hkeys hentry now services d
    refine ⟨_, hstarts, ?_⟩
    intro now services d started d' hstarted
    rw [hstarts] at hstarted
    rcases hbefore : Server.start now c services d with ⟨e | before, d''⟩
    · rw [hbefore] at hstarted
      cases hstarted
    · rw [hbefore] at hstarted
      cases hstarted
      have hlookup (d : Disk) (i : Identity) (k : Key) :
          ((before.holding ⟨KeyStore.empty.keys.insert (Text.trim name) w.freshKey⟩).server.store.lookup d i = .ok k) ↔
            i.name = Text.trim name ∧ k = w.freshKey :=
        KeyStore.lookup_single_iff (i := ⟨Text.trim name⟩)
      refine ⟨hlookup, ?_⟩
      rintro draft f r rfl hdraft hr
      obtain ⟨-, -, -, htyped, -, -⟩ := Draft.request_eq_ok_iff.1 hr
      have hidentity : r.identity = ⟨Text.trim draft.identity⟩ := (Identity.typed_eq_ok_iff.1 htyped).2
      have hkey' : Key.ofBase64 draft.key = .ok w.freshKey := by
        rw [hdraft]
        exact hkey
      refine ⟨hidentity, Server.authenticates hr hkey' fun d ↦ ?_⟩
      rw [hlookup, hidentity]
      exact ⟨rfl, rfl⟩

end Chore

namespace ByHand

def memoryText : String := "[guardian_service]\noperations = \"guardian.operations.basic\"\n"

def memoryConfiguration : Configuration where
  service := { operations := some "guardian.operations.basic" }

def memoryScene : Scene where
  disk := { (Disk.createFile {} ["guardian.toml"] (.bytes (Bytes.ofString memoryText))).2 with program := 1 }

def shown (name : String) : Command.Ending × Scene :=
  ((Chore.mint name).command none).run (errand .list).around ModuleRegistry.builtin memoryScene

def repeated (n : Nat) : String := String.ofList (List.replicate n 'a')

def entryFor (name : String) : SeededKey := ⟨Text.trim name, key.toBase64⟩

def seededText : String := memoryText ++ "[[capability_store.keys]]\nidentity = \"a\"\n" ++
  "key = \"BwcHBwcHBwcHBwcHBwcHBwcHBwcHBwcHBwcHBwcHBwc=\"\n"

def isBasic (keys : List SeededKey) (c : Configuration) : Bool :=
  c.service.operations == some "guardian.operations.basic" && c.service.settings.isEmpty && c.server == {} &&
    c.store == { keys } && c.endpoints.isEmpty

theorem eq_of_isBasic {keys : List SeededKey} (h : isBasic keys c = true) :
    c = { memoryConfiguration with store := { keys } } := by
  obtain ⟨⟨operations, settings⟩, server, store, endpoints⟩ := c
  simp only [isBasic, Bool.and_eq_true, beq_iff_eq, List.isEmpty_iff] at h
  obtain ⟨⟨⟨⟨rfl, rfl⟩, rfl⟩, rfl⟩, rfl⟩ := h
  rfl

theorem load_memoryScene :
    Command.loadConfiguration (errand .list).around none memoryScene = .ok memoryConfiguration := by
  have hread : (Configuration.load memoryScene.disk none none).toOption.any (isBasic []) = true := by decide +kernel
  cases hload : Configuration.load memoryScene.disk none none with
  | error e => simp [hload, Except.toOption] at hread
  | ok c =>
    rw [hload] at hread
    have hloaded : Configuration.load memoryScene.disk none none = .ok memoryConfiguration := by
      rw [hload, eq_of_isBasic hread]
      rfl
    exact congrArg (Except.mapError _) hloaded

theorem ofToml?_seededText :
    Configuration.ofToml? seededText = some (memoryConfiguration.withKey (entryFor " a ")) := by
  have hread : (Configuration.ofToml? seededText).any (isBasic [entryFor " a "]) = true := by decide +kernel
  cases hc : Configuration.ofToml? seededText with
  | none => simp [hc] at hread
  | some c =>
    rw [hc] at hread
    rw [eq_of_isBasic hread]
    rfl

theorem shown_eq {name : String} (h : (Text.trim name).isEmpty = false) : ∃ scene, shown name = (.success, scene) := by
  have hdone := (Command.runMint_eq_ok_iff_of_memory load_memoryScene rfl).2 ⟨h, rfl, rfl, rfl⟩
  exact ⟨_, Chore.run_eq_success_iff.2 hdone⟩

theorem trim_repeated (n : Nat) : Text.trim (repeated n) = repeated n := by
  apply Text.trim_of_forall
  intro c hc
  rw [repeated, String.toList_ofList] at hc
  obtain ⟨-, rfl⟩ := List.mem_replicate.1 hc
  rfl

theorem utf8ByteSize_repeated (n : Nat) : (repeated n).utf8ByteSize = n := by
  induction n with
  | zero => rfl
  | succ n ih =>
    have hsize : (repeated (n + 1)).utf8ByteSize = "a".utf8ByteSize + (repeated n).utf8ByteSize := by
      simp [repeated, List.replicate_succ]
    rw [hsize, ih]
    exact Nat.add_comm 1 n

def draft : Draft := { key := key.toBase64, identity := " a ", method := "echo" }

def freshness : Freshness := ⟨key, List.replicate 12 1, List.replicate 12 2, rfl, rfl⟩

theorem exists_request_draft : ∃ r, draft.request freshness = .ok r := by
  obtain ⟨e, he⟩ := Envelope.exists_pack key freshness
    (by decide +kernel : Cipher.Aead.fitsCounter (draft.payload []).renderBytes.length)
  have hidentity : Identity.typed draft.identity = .ok ⟨"a"⟩ :=
    Identity.typed_eq_ok_iff.2 ⟨by decide +kernel, by decide +kernel⟩
  exact ⟨⟨⟨"a"⟩, e⟩, Draft.request_eq_ok_iff.2 ⟨key, [], key.ofBase64_toBase64, hidentity, rfl, he⟩⟩

theorem starts_seeded : ∃ started d, Server.start 0 (memoryConfiguration.withKey (entryFor " a "))
    ModuleRegistry.builtin {} = (.ok started, d) := by
  have hstarted : (Server.start 0 (memoryConfiguration.withKey (entryFor " a ")) ModuleRegistry.builtin
      {}).1.toOption.isSome = true := by
    decide +kernel
  rcases hstart : Server.start 0 (memoryConfiguration.withKey (entryFor " a ")) ModuleRegistry.builtin {} with
    ⟨e | s, d⟩
  · rw [hstart] at hstarted
    cases hstarted
  · exact ⟨s, d, rfl⟩

end ByHand

open ByHand in
theorem Chore.shown_key_serves_by_hand :
    (∃ scene, shown " a " = (.success, scene)) ∧ (∃ scene, shown (repeated 513) = (.success, scene)) ∧
    Configuration.ofToml seededText = .ok (memoryConfiguration.withKey ⟨"a", key.toBase64⟩) ∧
    (memoryConfiguration.withKey ⟨(repeated 513), key.toBase64⟩).check = .error .keyIdentityTooLong ∧
    ∃ started d r, Server.start 0 (memoryConfiguration.withKey ⟨"a", key.toBase64⟩) ModuleRegistry.builtin {} =
        (.ok started, d) ∧
      (∀ d i k, started.server.store.lookup d i = .ok k ↔ i.name = "a" ∧ k = key) ∧
      draft.request freshness = .ok r ∧ started.server.Authenticates draft freshness r := by
  have htrim : Text.trim " a " = "a" := by decide +kernel
  have hsize : ¬ 512 < "a".utf8ByteSize := by decide +kernel
  have hlong : (Text.trim (repeated 513)).isEmpty = false := by
    rw [trim_repeated]
    decide +kernel
  obtain ⟨scene, hshown⟩ := shown_eq (by rw [htrim]; rfl : (Text.trim " a ").isEmpty = false)
  obtain ⟨scene', hshown'⟩ := shown_eq hlong
  obtain ⟨⟨_, _⟩, rfl, rfl, -, -, -, htext, hserves⟩ :=
    Chore.shown_key_serves (τ := Counter) ModuleRegistry.builtin load_memoryScene rfl rfl hshown
  obtain ⟨⟨_, _⟩, rfl, rfl, -, -, hrefused, -⟩ :=
    Chore.shown_key_serves (τ := Counter) ModuleRegistry.builtin load_memoryScene rfl rfl hshown'
  have hentry : entryFor " a " = ⟨"a", key.toBase64⟩ := by rw [entryFor, htrim]
  rw [htrim] at htext hserves
  rw [trim_repeated, utf8ByteSize_repeated] at hrefused
  refine ⟨⟨scene, hshown⟩, ⟨scene', hshown'⟩, ?_, hrefused, ?_⟩
  · have hread := htext seededText (by decide +kernel) (hentry ▸ ofToml?_seededText)
    rwa [if_neg hsize] at hread
  · obtain ⟨keys, -, hstarted⟩ := hserves (Nat.not_lt.1 hsize)
    obtain ⟨started, d, hstart⟩ := starts_seeded
    obtain ⟨r, hr⟩ := exists_request_draft
    rw [hentry] at hstart
    obtain ⟨hlookup, hsealed⟩ := hstarted _ _ _ _ _ hstart
    exact ⟨started, d, r, hstart, hlookup, hr, (hsealed draft freshness r rfl rfl hr).2⟩

end Gatekeeper
