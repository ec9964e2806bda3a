import Gatekeeper.Proofs.Results
import Gatekeeper.Settings.Configuration
import Mathlib.Data.List.Nodup

namespace Gatekeeper

def AreNew (names seen : List String) : Prop := names.Nodup ∧ ∀ name ∈ names, name ∉ seen

variable {names seen : List String} {n : String}

theorem areNew_nil : AreNew [] seen := ⟨.nil, nofun⟩

theorem areNew_cons_iff : AreNew (n :: names) seen ↔ n ∉ seen ∧ AreNew names (n :: seen) := by
  simp only [AreNew, List.nodup_cons, List.mem_cons, forall_eq_or_imp, not_or]
  constructor
  · rintro ⟨⟨hn, hnodup⟩, hseen, hnew⟩
    exact ⟨hseen, hnodup, fun m hm ↦ ⟨fun h ↦ hn (h ▸ hm), hnew m hm⟩⟩
  · rintro ⟨hseen, hnodup, hnew⟩
    exact ⟨⟨fun hn ↦ (hnew n hn).1 rfl, hnodup⟩, hseen, fun m hm ↦ (hnew m hm).2⟩

theorem areNew_nil_right_iff : AreNew names [] ↔ names.Nodup := and_iff_left fun _ _ ↦ List.not_mem_nil

theorem not_areNew_cons_of_mem (h : n ∈ seen) : ¬ AreNew (n :: names) seen := fun hnew ↦
  (areNew_cons_iff.1 hnew).1 h

namespace SeededKey

def name (s : SeededKey) : String := Text.trim s.identity

variable {s : SeededKey} {i : Identity} {k : Key} {keys : List SeededKey}

theorem decode_eq_ok_iff : s.decode = .ok (i, k) ↔
    i.name = s.name ∧ s.name ≠ "" ∧ s.name.utf8ByteSize ≤ Limit.identifierBytes ∧
      Key.ofBase64 s.key = .ok k := by
  unfold decode name
  dsimp only
  split
  next hblank => simp [String.isEmpty_iff.1 hblank]
  next hblank =>
    have hne : Text.trim s.identity ≠ "" := fun h ↦ hblank (String.isEmpty_iff.2 h)
    split
    next hlong => simp [Nat.not_le.2 hlong]
    next hlong =>
      cases i
      cases Key.ofBase64 s.key with
      | error e => simp
      | ok key => simp [hne, Nat.not_lt.1 hlong, eq_comm]

theorem checkAll_eq_ok_iff : checkAll seen keys = .ok () ↔
    (∀ s ∈ keys, ∃ i k, s.decode = .ok (i, k)) ∧ AreNew (keys.map name) seen := by
  induction keys generalizing seen with
  | nil => simp [checkAll, areNew_nil]
  | cons s rest ih =>
    rw [checkAll, List.map_cons]
    cases hs : s.decode with
    | error e => simp [hs]
    | ok e =>
      obtain ⟨i, k⟩ := e
      dsimp only
      rw [(decode_eq_ok_iff.1 hs).1]
      split
      next hseen => simp [not_areNew_cons_of_mem (List.contains_iff_mem.1 hseen)]
      next hseen =>
        have hnot : s.name ∉ seen := fun h ↦ hseen (List.contains_iff_mem.2 h)
        simp [ih, hs, areNew_cons_iff, hnot]

end SeededKey

namespace Endpoint

variable {e : Endpoint} {es : List Endpoint}

structure IsSound (e : Endpoint) : Prop where
  named : e.id ≠ ""
  short : e.id.utf8ByteSize ≤ Limit.identifierBytes
  web : e.isWeb

theorem checkAll_eq_ok_iff : checkAll seen es = .ok () ↔
    (∀ e ∈ es, e.IsSound) ∧ AreNew (es.map Endpoint.id) seen := by
  induction es generalizing seen with
  | nil => simp [checkAll, areNew_nil]
  | cons e rest ih =>
    rw [checkAll, List.map_cons, List.forall_mem_cons]
    split
    next hblank =>
      have hnot : ¬ e.IsSound := fun h ↦ h.named (String.isEmpty_iff.1 hblank)
      simp [hnot]
    next hblank =>
      split
      next hlong =>
        have hnot : ¬ e.IsSound := fun h ↦ Nat.not_le.2 hlong h.short
        simp [hnot]
      next hlong =>
        split
        next hseen => simp [not_areNew_cons_of_mem (List.contains_iff_mem.1 hseen)]
        next hseen =>
          have hnot : e.id ∉ seen := fun h ↦ hseen (List.contains_iff_mem.2 h)
          split
          next hweb =>
            have hsound : e.IsSound := ⟨fun h ↦ hblank (String.isEmpty_iff.2 h), Nat.not_lt.1 hlong, hweb⟩
            simp [ih, hsound, areNew_cons_iff, hnot]
          next hweb =>
            have hnot : ¬ e.IsSound := fun h ↦ hweb h.web
            simp [hnot]

end Endpoint

namespace StoreSettings

theorem check_memory_iff {s : StoreSettings} (h : s.kind = .memory) : s.check = .ok () ↔
    s.file = none ∧ s.keys.length ≤ Limit.seededKeys ∧ (∀ k ∈ s.keys, ∃ i key, k.decode = .ok (i, key)) ∧
      (s.keys.map SeededKey.name).Nodup := by
  unfold check checkKind path
  rw [h]
  cases s.file with
  | some file => simp
  | none =>
    simp only [Option.map_none]
    split
    next hmany => simp [Nat.not_le.2 hmany]
    next hfew => simp [SeededKey.checkAll_eq_ok_iff, areNew_nil_right_iff, Nat.not_lt.1 hfew]

end StoreSettings

namespace ServiceSettings

theorem check_eq_ok_iff {s : ServiceSettings} : s.check = .ok () ↔
    ∃ text, s.operations = some text ∧ Text.trim text ≠ "" ∧
      (Text.trim text).utf8ByteSize ≤ Limit.identifierBytes := by
  unfold check
  cases s.operations with
  | none => simp
  | some text =>
    dsimp only
    split
    next hblank => simp [String.isEmpty_iff.1 hblank]
    next hblank =>
      have hne : Text.trim text ≠ "" := fun h ↦ hblank (String.isEmpty_iff.2 h)
      split
      next hlong => simp [Nat.not_le.2 hlong]
      next hlong => simp [hne, Nat.not_lt.1 hlong]

end ServiceSettings

namespace ServerSettings

theorem check_eq_ok_iff {s : ServerSettings} : s.check = .ok () ↔
    0 < s.maxBodyBytes ∧ s.maxBodyBytes ≤ Limit.bodyBytes ∧
      (∃ a, s.address = .ok a ∧ (a.host.isLoopback || s.allowNonLoopback)) ∧ s.audit.check = .ok () := by
  unfold check
  split
  next hzero => simp [hzero]
  next hzero =>
    split
    next hgreat => simp [Nat.not_le.2 hgreat]
    next hgreat =>
      cases s.address with
      | error e => simp
      | ok a =>
        dsimp only
        split
        next ha =>
          simp only [Except.ok.injEq, exists_eq_left', ha, true_and]
          exact (and_iff_right (Nat.pos_of_ne_zero hzero)).symm.trans
            (and_congr_right' (and_iff_right (Nat.not_lt.1 hgreat)).symm)
        next ha => simp only [Except.ok.injEq, exists_eq_left', ha, reduceCtorEq, false_and, and_false]

end ServerSettings

namespace Configuration

variable {c : Configuration}

theorem checkEndpoints_eq_ok_iff : c.checkEndpoints = .ok () ↔
    c.endpoints.length ≤ Limit.endpoints ∧ (∀ e ∈ c.endpointRecords, e.IsSound) ∧
      (c.endpointRecords.map Endpoint.id).Nodup := by
  unfold checkEndpoints
  split
  next hmany => simp [Nat.not_le.2 hmany]
  next hfew => simp [Endpoint.checkAll_eq_ok_iff, areNew_nil_right_iff, Nat.not_lt.1 hfew]

theorem check_eq_ok_iff : c.check = .ok () ↔
    c.service.check = .ok () ∧ c.server.check = .ok () ∧ c.store.check = .ok () ∧
      c.checkEndpoints = .ok () := by
  simp only [check, bind_eq_ok_iff, Unique.exists_iff, PUnit.default_eq_unit]

end Configuration

end Gatekeeper
