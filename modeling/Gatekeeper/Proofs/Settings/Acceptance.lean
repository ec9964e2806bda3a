import Gatekeeper.Proofs.Capability.Keys
import Gatekeeper.Proofs.Settings.Checks

namespace Gatekeeper

def IsIdentifier (text : String) : Prop := 1 ≤ text.utf8ByteSize ∧ text.utf8ByteSize ≤ 512

/-- A path of at most 4096 bytes, and of at most 255 in each component. -/
def IsShortPath (path : String) : Prop :=
  path.utf8ByteSize ≤ 4096 ∧ ∀ c ∈ Disk.Path.components path, c.utf8ByteSize ≤ 255

variable {text path : String}

theorem isIdentifier_iff :
    IsIdentifier text ↔ text ≠ "" ∧ text.utf8ByteSize ≤ Limit.identifierBytes := by
  rw [IsIdentifier, Limit.identifierBytes, Nat.one_le_iff_ne_zero, ne_eq, String.utf8ByteSize_eq_zero_iff]

namespace PathFault

theorem ofLengths?_eq_none_iff : ofLengths? path = none ↔ IsShortPath path := by
  have hlong : Disk.Path.hasLongComponent path ↔ ∃ c ∈ Disk.Path.components path, 255 < c.utf8ByteSize := by
    rw [Disk.Path.hasLongComponent, List.any_eq_true]
    exact exists_congr fun c ↦ and_congr_right fun _ ↦ decide_eq_true_iff
  unfold ofLengths? IsShortPath Disk.Path.maxPathBytes
  split
  next hwhole => simp [Nat.not_le.2 hwhole]
  next hwhole =>
    split
    next hcomponent =>
      obtain ⟨c, hc, hcbytes⟩ := hlong.1 hcomponent
      simp only [reduceCtorEq, false_iff]
      intro h
      exact Nat.not_le.2 hcbytes (h.2 c hc)
    next hcomponent =>
      simp only [true_iff]
      exact ⟨Nat.not_lt.1 hwhole, fun c hc ↦ Nat.not_lt.1 fun hcbytes ↦ hcomponent (hlong.2 ⟨c, hc, hcbytes⟩)⟩

theorem of?_eq_none_iff : of? path = none ↔ Text.trim path ≠ "" ∧ IsShortPath path := by
  unfold of?
  split
  next hblank => simp [String.isEmpty_iff.1 hblank]
  next hblank =>
    have hne : Text.trim path ≠ "" := fun h ↦ hblank (String.isEmpty_iff.2 h)
    rw [ofLengths?_eq_none_iff, and_iff_right hne]

end PathFault

namespace SeededKey

structure IsSound (s : SeededKey) : Prop where
  named : IsIdentifier s.name
  key : ∃ bytes, Text.Base64.decode? (Text.trim s.key) = some bytes ∧ bytes.length = 32

theorem exists_ofBase64_iff : (∃ k, Key.ofBase64 text = .ok k) ↔
    ∃ bytes, Text.Base64.decode? (Text.trim text) = some bytes ∧ bytes.length = 32 := by
  unfold Key.ofBase64
  cases Text.Base64.decode? (Text.trim text) with
  | none => simp
  | some bytes =>
    simp only [Key.ofBytes_eq_ok_iff, Option.some.injEq, exists_eq_left']
    constructor
    · rintro ⟨k, rfl⟩
      exact k.length_eq
    · intro h
      exact ⟨⟨bytes, h⟩, rfl⟩

theorem exists_decode_iff {s : SeededKey} : (∃ i k, s.decode = .ok (i, k)) ↔ s.IsSound := by
  simp only [decode_eq_ok_iff]
  constructor
  · rintro ⟨i, k, -, hne, hshort, hk⟩
    exact ⟨isIdentifier_iff.2 ⟨hne, hshort⟩, exists_ofBase64_iff.1 ⟨k, hk⟩⟩
  · rintro ⟨hname, hkey⟩
    obtain ⟨hne, hshort⟩ := isIdentifier_iff.1 hname
    obtain ⟨k, hk⟩ := exists_ofBase64_iff.2 hkey
    exact ⟨⟨s.name⟩, k, rfl, hne, hshort, hk⟩

end SeededKey

namespace StoreSettings

structure HoldsKeys (s : StoreSettings) : Prop where
  file : s.file = none
  few : s.keys.length ≤ 1024
  sound : ∀ k ∈ s.keys, k.IsSound
  distinct : (s.keys.map SeededKey.name).Nodup

structure NamesFile (s : StoreSettings) : Prop where
  path : ∃ path, s.path = some path ∧ Text.trim path ≠ "" ∧ IsShortPath path
  keys : s.keys = []

variable {s : StoreSettings}

theorem check_memory_iff_holdsKeys (h : s.kind = .memory) : s.check = .ok () ↔ s.HoldsKeys := by
  simp only [check_memory_iff h, SeededKey.exists_decode_iff]
  constructor
  · rintro ⟨hfile, hfew, hsound, hdistinct⟩
    exact ⟨hfile, hfew, hsound, hdistinct⟩
  · rintro ⟨hfile, hfew, hsound, hdistinct⟩
    exact ⟨hfile, hfew, hsound, hdistinct⟩

theorem check_sqlite_iff_namesFile (h : s.kind = .sqlite) : s.check = .ok () ↔ s.NamesFile := by
  have hkind : s.checkKind = .ok () ↔ s.NamesFile := by
    unfold checkKind
    rw [h]
    cases hpath : s.path with
    | none =>
      simp only [reduceCtorEq, false_iff]
      rintro ⟨⟨path, hsome, -⟩, -⟩
      rw [hpath] at hsome
      cases hsome
    | some path =>
      have hnamed : s.NamesFile ↔ PathFault.of? path = none ∧ s.keys = [] := by
        rw [PathFault.of?_eq_none_iff]
        constructor
        · rintro ⟨⟨other, hsome, hgood⟩, hkeys⟩
          obtain rfl := Option.some.inj (hpath.symm.trans hsome)
          exact ⟨hgood, hkeys⟩
        · rintro ⟨hgood, hkeys⟩
          exact ⟨⟨path, hpath, hgood⟩, hkeys⟩
      rw [hnamed]
      cases hfault : PathFault.of? path <;> simp [hfault]
  rw [← hkind, check]
  cases hresult : s.checkKind with
  | error e => simp
  | ok u =>
    have hkeys := (hkind.1 hresult).keys
    simp [hkeys, SeededKey.checkAll]

theorem check_of_fault {fault : PathFault} (hkind : s.kind = .sqlite) (hpath : s.path = some path)
    (hfault : PathFault.of? path = some fault) : s.check = .error (.path .store fault) := by
  simp only [check, checkKind, hkind, hpath, hfault]

theorem HoldsKeys.perm {keys : List SeededKey} (h : s.HoldsKeys) (hperm : keys.Perm s.keys) :
    { s with keys }.HoldsKeys where
  file := h.file
  few := hperm.length_eq ▸ h.few
  sound k hk := h.sound k (hperm.mem_iff.1 hk)
  distinct := (hperm.map SeededKey.name).nodup_iff.2 h.distinct

theorem NamesFile.perm {keys : List SeededKey} (h : s.NamesFile) (hperm : keys.Perm s.keys) :
    { s with keys }.NamesFile where
  path := h.path
  keys := List.Perm.eq_nil (h.keys ▸ hperm)

end StoreSettings

namespace Net

inductive Host.IsLoopback : Host → Prop where
  | v4 {b c d : Nat} : IsLoopback (.v4 127 b c d)
  | v6 {scope : Nat} : IsLoopback (.v6 [0, 0, 0, 0, 0, 0, 0, 1] scope)

theorem Host.isLoopback_iff {h : Host} : h.isLoopback ↔ h.IsLoopback := by
  constructor
  · intro hloop
    cases h with
    | v4 a b c d =>
      obtain rfl := beq_iff_eq.1 hloop
      exact .v4
    | v6 groups scope =>
      obtain rfl := beq_iff_eq.1 hloop
      exact .v6
  · rintro (_ | _) <;> rfl

theorem SocketAddress.parse?_empty : parse? "" = none := by decide

end Net

namespace ServerSettings

variable {s : ServerSettings}

theorem address_eq_ok_iff {a : Net.SocketAddress} :
    s.address = .ok a ↔ Net.SocketAddress.parse? (Text.trim s.bind) = some a := by
  unfold address
  by_cases hblank : Text.trim s.bind = ""
  · simp [hblank, Net.SocketAddress.parse?_empty]
  · rw [if_neg (by simpa using hblank)]
    cases Net.SocketAddress.parse? (Text.trim s.bind) <;> simp

end ServerSettings

theorem AuditSettings.check_eq_ok_iff {s : AuditSettings} : s.check = .ok () ↔
    ∀ path, s.path = some path → Text.trim path ≠ "" ∧ IsShortPath (Text.trim path) := by
  unfold check
  cases s.path with
  | none => simp
  | some path =>
    have hfault := @PathFault.of?_eq_none_iff (Text.trim path)
    rw [Text.trim_trim] at hfault
    simp only [Option.bind_some, Option.some.injEq, forall_eq', ← hfault]
    cases PathFault.of? (Text.trim path) <;> simp

namespace Endpoint

theorem isWeb_iff {e : Endpoint} :
    e.isWeb ↔ "http://".toList <+: e.url.toList ∨ "https://".toList <+: e.url.toList := by
  rw [isWeb, Bool.or_eq_true, List.isPrefixOf_iff_prefix, List.isPrefixOf_iff_prefix]

theorem isSound_iff {e : Endpoint} : e.IsSound ↔
    IsIdentifier e.id ∧ ("http://".toList <+: e.url.toList ∨ "https://".toList <+: e.url.toList) := by
  rw [isIdentifier_iff, ← isWeb_iff]
  constructor
  · intro h
    exact ⟨⟨h.named, h.short⟩, h.web⟩
  · rintro ⟨⟨hnamed, hshort⟩, hweb⟩
    exact ⟨hnamed, hshort, hweb⟩

end Endpoint

namespace Configuration

/-- The limits that a configuration is to keep to. -/
structure IsSound (c : Configuration) : Prop where
  operations : ∃ name, c.service.operations = some name ∧ IsIdentifier (Text.trim name)
  body : 1 ≤ c.server.maxBodyBytes ∧ c.server.maxBodyBytes ≤ 16777216
  bind : ∃ a, Net.SocketAddress.parse? (Text.trim c.server.bind) = some a ∧
    (a.host.IsLoopback ∨ c.server.allowNonLoopback)
  audit : ∀ path, c.server.audit.path = some path → Text.trim path ≠ "" ∧ IsShortPath (Text.trim path)
  memory : c.store.kind = .memory → c.store.HoldsKeys
  sqlite : c.store.kind = .sqlite → c.store.NamesFile
  fewEndpoints : c.endpoints.length ≤ 256
  endpoints : ∀ e ∈ c.endpoints, IsIdentifier (Text.trim e.id) ∧
    ("http://".toList <+: (Text.trim e.url).toList ∨ "https://".toList <+: (Text.trim e.url).toList)
  distinctEndpoints : (c.endpoints.map fun e ↦ Text.trim e.id).Nodup

variable {c : Configuration}

theorem checkEndpoints_iff_isSound : c.checkEndpoints = .ok () ↔
    c.endpoints.length ≤ 256 ∧
      (∀ e ∈ c.endpoints, IsIdentifier (Text.trim e.id) ∧
        ("http://".toList <+: (Text.trim e.url).toList ∨ "https://".toList <+: (Text.trim e.url).toList)) ∧
      (c.endpoints.map fun e ↦ Text.trim e.id).Nodup := by
  rw [checkEndpoints_eq_ok_iff, endpointRecords, List.map_map, List.forall_mem_map]
  simp only [Endpoint.isSound_iff]
  rfl

theorem check_iff_isSound (c : Configuration) : c.check = .ok () ↔ c.IsSound := by
  simp only [check_eq_ok_iff, ServiceSettings.check_eq_ok_iff, ServerSettings.check_eq_ok_iff,
    ServerSettings.address_eq_ok_iff, AuditSettings.check_eq_ok_iff, checkEndpoints_iff_isSound,
    ← isIdentifier_iff, Bool.or_eq_true, Net.Host.isLoopback_iff]
  constructor
  · rintro ⟨hservice, ⟨hpos, hgreat, hbind, haudit⟩, hstore, hfew, hendpoints, hdistinct⟩
    exact
      { operations := hservice
        body := ⟨hpos, hgreat⟩
        bind := hbind
        audit := haudit
        memory := fun hkind ↦ (StoreSettings.check_memory_iff_holdsKeys hkind).1 hstore
        sqlite := fun hkind ↦ (StoreSettings.check_sqlite_iff_namesFile hkind).1 hstore
        fewEndpoints := hfew
        endpoints := hendpoints
        distinctEndpoints := hdistinct }
  · intro h
    have hstore : c.store.check = .ok () := by
      cases hkind : c.store.kind with
      | memory => exact (StoreSettings.check_memory_iff_holdsKeys hkind).2 (h.memory hkind)
      | sqlite => exact (StoreSettings.check_sqlite_iff_namesFile hkind).2 (h.sqlite hkind)
    exact ⟨h.operations, ⟨h.body.1, h.body.2, h.bind, h.audit⟩, hstore, h.fewEndpoints, h.endpoints,
      h.distinctEndpoints⟩

def relisted (c : Configuration) (keys : List SeededKey) (endpoints : List Endpoint) : Configuration :=
  { c with store := { c.store with keys }, endpoints }

theorem IsSound.relisted {keys : List SeededKey} {endpoints : List Endpoint} (h : c.IsSound)
    (hkeys : keys.Perm c.store.keys) (hendpoints : endpoints.Perm c.endpoints) :
    (c.relisted keys endpoints).IsSound where
  operations := h.operations
  body := h.body
  bind := h.bind
  audit := h.audit
  memory hkind := (h.memory hkind).perm hkeys
  sqlite hkind := (h.sqlite hkind).perm hkeys
  fewEndpoints := hendpoints.length_eq ▸ h.fewEndpoints
  endpoints e he := h.endpoints e (hendpoints.mem_iff.1 he)
  distinctEndpoints := (hendpoints.map _).nodup_iff.2 h.distinctEndpoints

/-- The check accepts exactly the configurations that keep to the limits, and it does not matter to it in
which order keys and endpoints are listed. -/
theorem accepts_exactly_sound (c : Configuration) : (c.check = .ok () ↔ c.IsSound) ∧
    ∀ keys endpoints, keys.Perm c.store.keys → endpoints.Perm c.endpoints →
      ((c.relisted keys endpoints).check = .ok () ↔ c.check = .ok ()) := by
  refine ⟨c.check_iff_isSound, fun keys endpoints hkeys hendpoints ↦ ?_⟩
  rw [check_iff_isSound, check_iff_isSound]
  constructor
  · intro h
    exact h.relisted hkeys.symm hendpoints.symm
  · intro h
    exact h.relisted hkeys hendpoints

def paired : Configuration where
  service := { operations := some " guardian.operations.basic " }
  store := { keys := [{ identity := " b", key := "BwcHBwcHBwcHBwcHBwcHBwcHBwcHBwcHBwcHBwcHBwc=" },
    { identity := "a ", key := " CAgICAgICAgICAgICAgICAgICAgICAgICAgICAgICAg=" }] }
  endpoints := [⟨"b ", " https://b"⟩, ⟨" a", "http://a "⟩]

set_option maxRecDepth 10000 in
theorem accepts_exactly_sound_paired : paired.IsSound ∧
    (paired.relisted paired.store.keys.reverse paired.endpoints.reverse).check = .ok () := by
  have hcheck : paired.check = .ok () := by rfl
  obtain ⟨hiff, horder⟩ := accepts_exactly_sound paired
  exact ⟨hiff.1 hcheck, (horder _ _ (List.reverse_perm _) (List.reverse_perm _)).2 hcheck⟩

def placed (file : Disk.RawPath) (bind : String) : Configuration where
  service := { operations := some "guardian.operations.basic" }
  server := { bind }
  store := { kind := .sqlite, file := some file }

/-- A path of a hundred bytes of which none begins a character. -/
def unreadable : Bytes := List.replicate 100 0xff

theorem unreadable_noText : unreadable.toString? = none := by decide +kernel

theorem fault_unreadable :
    PathFault.of? (Disk.RawPath.bytes unreadable unreadable_noText).shown = some .longComponent := by
  have hshown : (Disk.RawPath.bytes unreadable unreadable_noText).shown =
      String.ofList (List.replicate 100 '\ufffd') := by
    decide +kernel
  rw [hshown, PathFault.of?, PathFault.ofLengths?, Text.trim, Disk.Path.hasLongComponent, Disk.Path.components]
  simp only [String.toList_ofList]
  decide +kernel

/-- A hundred bytes make no name that is too long, but each of them counts as the three of its mark. The
loopback address of version 4 is none any more when it is written as one of version 6. -/
theorem refused_for_form :
    (placed (.text "k.db") "127.0.0.1:8080").check = .ok () ∧
    (unreadable.length ≤ Disk.Path.maxComponentBytes ∧
      (placed (.bytes unreadable unreadable_noText) "127.0.0.1:8080").check =
        .error (.path .store .longComponent)) ∧
    (placed (.text "k.db") "[::ffff:127.0.0.1]:8080").check = .error .bindExposed := by
  have hstore : (placed (.bytes unreadable unreadable_noText) "127.0.0.1:8080").store.check =
      .error (.path .store .longComponent) :=
    StoreSettings.check_of_fault rfl rfl fault_unreadable
  refine ⟨by decide +kernel, ⟨by decide, ?_⟩, by decide +kernel⟩
  rw [check, hstore]
  rfl

end Configuration

end Gatekeeper
