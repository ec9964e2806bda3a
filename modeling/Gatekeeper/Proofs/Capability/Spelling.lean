import Gatekeeper.Proofs.Command.Successes
import Gatekeeper.Proofs.Settings.Acceptance
import Gatekeeper.Proofs.Text.Digits
import Mathlib.Data.List.TakeWhile

namespace Gatekeeper

namespace Text

variable {s t : String} {cs blanks : List Char}

def IsPadded (s t : String) : Prop :=
  ∃ before after : List Char, (∀ c ∈ before ++ after, isBlank c = true) ∧ s.toList = before ++ t.toList ++ after

theorem trimChars_append (h : ∀ c ∈ blanks, isBlank c = true) : trimChars (blanks ++ cs) = trimChars cs := by
  rw [trimChars, List.dropWhile_append_of_pos h, ← trimChars]

theorem trimChars_append_blanks (h : ∀ c ∈ blanks, isBlank c = true) : trimChars (cs ++ blanks) = trimChars cs := by
  have hreverse : ∀ c ∈ blanks.reverse, isBlank c = true := fun c hc ↦ h c (List.mem_reverse.1 hc)
  have hnone : blanks.dropWhile isBlank = [] := List.dropWhile_eq_nil_iff.2 h
  rw [trimChars, List.dropWhile_append]
  split
  next hempty => rw [hnone, trimChars, List.isEmpty_iff.1 hempty]
  next => rw [List.reverse_append, List.dropWhile_append_of_pos hreverse, ← trimChars]

theorem trimChars_split (cs : List Char) : ∃ before after : List Char,
    (∀ c ∈ before ++ after, isBlank c = true) ∧ cs = before ++ trimChars cs ++ after := by
  refine ⟨cs.takeWhile isBlank, ((cs.dropWhile isBlank).reverse.takeWhile isBlank).reverse, ?_, ?_⟩
  · intro c hc
    rcases List.mem_append.1 hc with hc | hc
    · exact List.mem_takeWhile_imp hc
    · exact List.mem_takeWhile_imp (List.mem_reverse.1 hc)
  · rw [List.append_assoc, trimChars, ← List.reverse_append, List.takeWhile_append_dropWhile, List.reverse_reverse,
      List.takeWhile_append_dropWhile]

theorem trim_eq_iff (ht : trim t = t) : trim s = t ↔ IsPadded s t := by
  constructor
  · rintro rfl
    obtain ⟨before, after, hblank, hsplit⟩ := trimChars_split s.toList
    refine ⟨before, after, hblank, ?_⟩
    rw [trim, String.toList_ofList]
    exact hsplit
  · rintro ⟨before, after, hblank, hsplit⟩
    have hbefore : ∀ c ∈ before, isBlank c = true := fun c hc ↦ hblank c (List.mem_append_left _ hc)
    have hafter : ∀ c ∈ after, isBlank c = true := fun c hc ↦ hblank c (List.mem_append_right _ hc)
    rw [trim, hsplit, trimChars_append_blanks hafter, trimChars_append hbefore, ← trim, ht]

end Text

namespace Key

open Text Text.Base64

variable {k k' : Key} {s : String} {n : Nat} {bytes : Bytes}

theorem trim_toBase64 (k : Key) : trim k.toBase64 = k.toBase64 := trim_encode k.bytes

theorem toBase64_injective : Function.Injective toBase64 := fun _ _ h ↦ Key.ext (encode_injective h)

theorem spells_toBase64_iff : Spells k.toBase64.toList bytes ↔ bytes = k.bytes := by
  rw [← decode?_eq_some_iff_spells, toBase64, decode?_encode, Option.some.injEq, eq_comm]

theorem ofBytes_eq_error_iff {e : KeyError} :
    ofBytes bytes = .error e ↔ bytes.length ≠ 32 ∧ e = .length bytes.length := by
  unfold ofBytes
  split
  next h => simp [h, Cipher.Aead.keyBytes]
  next h =>
    rw [Except.error.injEq, eq_comm]
    exact (and_iff_right h).symm

theorem ofBase64_of_spells (h : Spells (trim s).toList bytes) : ofBase64 s = ofBytes bytes := by
  rw [ofBase64, decode?_eq_some_iff_spells.2 h]

theorem ofBase64_eq_ok_iff : ofBase64 s = .ok k ↔ trim s = k.toBase64 := by
  constructor
  · intro h
    unfold ofBase64 at h
    split at h
    next bytes hbytes =>
      obtain rfl := ofBytes_eq_ok_iff.1 h
      exact decode?_eq_some_iff.1 hbytes
    · cases h
  · intro h
    rw [ofBase64, h, toBase64, decode?_encode]
    exact ofBytes_eq_ok_iff.2 rfl

theorem ofBase64_eq_length_iff : ofBase64 s = .error (.length n) ↔
    n ≠ 32 ∧ ∃ bytes : Bytes, bytes.length = n ∧ Spells (trim s).toList bytes := by
  constructor
  · intro h
    unfold ofBase64 at h
    split at h
    next bytes hbytes =>
      obtain ⟨hlength, hn⟩ := ofBytes_eq_error_iff.1 h
      obtain rfl := KeyError.length.inj hn
      exact ⟨hlength, bytes, rfl, decode?_eq_some_iff_spells.1 hbytes⟩
    · cases h
  · rintro ⟨hn, bytes, rfl, hbytes⟩
    rw [ofBase64_of_spells hbytes]
    exact ofBytes_eq_error_iff.2 ⟨hn, rfl⟩

theorem ofBase64_eq_encoding_iff : ofBase64 s = .error .encoding ↔ ∀ bytes, ¬ Spells (trim s).toList bytes := by
  constructor
  · intro h bytes hbytes
    rw [ofBase64_of_spells hbytes] at h
    cases (ofBytes_eq_error_iff.1 h).2
  · intro h
    unfold ofBase64
    split
    next bytes hbytes => exact absurd (decode?_eq_some_iff_spells.1 hbytes) (h bytes)
    · rfl

theorem ofBase64_eq_ok_iff_isPadded : ofBase64 s = .ok k ↔ IsPadded s k.toBase64 := by
  rw [ofBase64_eq_ok_iff, trim_eq_iff k.trim_toBase64]

end Key

namespace SeededKey

variable {c : Configuration} {entry : SeededKey}

theorem exists_decode_of_check (hc : c.check = .ok ()) (hentry : entry ∈ c.store.keys) :
    ∃ i k, entry.decode = .ok (i, k) := by
  obtain ⟨-, -, hstore, -⟩ := Configuration.check_eq_ok_iff.1 hc
  cases hkind : c.store.kind with
  | memory => exact exists_decode_iff.2 (((StoreSettings.check_memory_iff_holdsKeys hkind).1 hstore).sound entry hentry)
  | sqlite =>
    rw [((StoreSettings.check_sqlite_iff_namesFile hkind).1 hstore).keys] at hentry
    cases hentry

theorem decode_respelled {i : Identity} {k : Key} (h : entry.decode = .ok (i, k)) (text : String) :
    { entry with key := text }.decode = .ok (i, k) ↔ Text.IsPadded text k.toBase64 := by
  obtain ⟨hname, hne, hshort, -⟩ := decode_eq_ok_iff.1 h
  rw [decode_eq_ok_iff, Key.ofBase64_eq_ok_iff_isPadded]
  constructor
  · intro hdecode
    exact hdecode.2.2.2
  · intro htext
    exact ⟨hname, hne, hshort, htext⟩

end SeededKey

theorem Draft.request_respelled {draft : Draft} {f : Freshness} {r : Request} {k : Key} {text : String}
    (hr : draft.request f = .ok r) (hk : Key.ofBase64 draft.key = .ok k) (htext : Text.IsPadded text k.toBase64) :
    { draft with key := text }.request f = .ok r := by
  rw [← hr, request, request, hk, Key.ofBase64_eq_ok_iff_isPadded.2 htext]
  rfl

namespace Key

open Text Text.Base64

/-- A text is read as a key exactly if it is what is written for that key, with blanks around it or without; it is
refused for its length exactly if it spells other than thirty-two bytes, and for its encoding if it spells none. So
a key has one spelling up to blanks in a configuration and on the command line, and that one is printed. -/
theorem spelled_in_one_way (s : String) :
    (∀ k, ofBase64 s = .ok k ↔ trim s = k.toBase64) ∧
    (∀ n, ofBase64 s = .error (.length n) ↔
      n ≠ 32 ∧ ∃ bytes : Bytes, bytes.length = n ∧ Spells (trim s).toList bytes) ∧
    (ofBase64 s = .error .encoding ↔ ∀ bytes, ¬ Spells (trim s).toList bytes) ∧
    toBase64.Injective ∧ (∀ k : Key, ∀ bytes, Spells k.toBase64.toList bytes ↔ bytes = k.bytes) ∧
    (∀ k, ofBase64 s = .ok k ↔ IsPadded s k.toBase64) ∧
    (∀ c : Configuration, c.check = .ok () → ∀ entry ∈ c.store.keys, ∃ i k, entry.decode = .ok (i, k) ∧
      ∀ text, { entry with key := text }.decode = .ok (i, k) ↔ IsPadded text k.toBase64) ∧
    (∀ (draft : Draft) f r, draft.request f = .ok r → ∃ k, ofBase64 draft.key = .ok k ∧
      IsPadded draft.key k.toBase64 ∧
      ∀ text, IsPadded text k.toBase64 → { draft with key := text }.request f = .ok r) ∧
    ∀ (σ : Type) (modules : ModuleRegistry σ) w name config scene scene',
      (Command.mint name config).run w modules scene = (.success, scene') → ∃ v : Json,
        scene'.output = scene.output ++ (v.pretty ++ "\n") ∧ Json.parse (v.pretty ++ "\n") = .ok v ∧
        v.field? "key" = some (.string w.freshKey.toBase64) := by
  refine ⟨fun _ ↦ ofBase64_eq_ok_iff, fun _ ↦ ofBase64_eq_length_iff, ofBase64_eq_encoding_iff, toBase64_injective,
    fun _ _ ↦ spells_toBase64_iff, fun _ ↦ ofBase64_eq_ok_iff_isPadded, ?_, ?_, ?_⟩
  · intro c hc entry hentry
    obtain ⟨i, k, hdecode⟩ := SeededKey.exists_decode_of_check hc hentry
    exact ⟨i, k, hdecode, SeededKey.decode_respelled hdecode⟩
  · intro draft f r hr
    obtain ⟨k, p, hk, -⟩ := Draft.request_eq_ok_iff.1 hr
    exact ⟨k, hk, ofBase64_eq_ok_iff_isPadded.1 hk, fun text ↦ Draft.request_respelled hr hk⟩
  · intro σ modules w name config scene scene' h
    obtain ⟨persisted, hprinted⟩ := Chore.output_of_mint h
    exact ⟨_, hprinted, (Chore.portable_minted _ _).parse_pretty, rfl⟩

set_option maxRecDepth 10000 in
/-- A text that is read, one that is too short and one with bits left over. -/
theorem spelled_in_one_way_by_hand :
    ofBase64 " BwcHBwcHBwcHBwcHBwcHBwcHBwcHBwcHBwcHBwcHBwc=\n" = .ok ByHand.key ∧
    ofBase64 "AAAA" = .error (.length 3) ∧ ofBase64 "AAB=" = .error .encoding ∧
    (Configuration.paired.check = .ok () ∧ ∀ entry ∈ Configuration.paired.store.keys,
      ∃ i k, entry.decode = .ok (i, k) ∧ ∀ text,
        { entry with key := text }.decode = .ok (i, k) ↔ IsPadded text k.toBase64) ∧
    (∃ f r, ∃ k : Key, (Dispatcher.nestedDraft 0).request f = .ok r ∧
      IsPadded (Dispatcher.nestedDraft 0).key k.toBase64) ∧
    ∃ v, ByHand.Prints (.mint " a ") (ByHand.disk "k.db") v ∧ Json.parse (v.pretty ++ "\n") = .ok v ∧
      v.field? "key" = some (.string ByHand.key.toBase64) := by
  obtain ⟨hread, -, -, -, -, -, -, -, -⟩ := spelled_in_one_way " BwcHBwcHBwcHBwcHBwcHBwcHBwcHBwcHBwcHBwcHBwc=\n"
  obtain ⟨-, hlength, -, -, -, -, hchecked, hsealed, hprinted⟩ := spelled_in_one_way "AAAA"
  obtain ⟨-, -, hencoding, -⟩ := spelled_in_one_way "AAB="
  refine ⟨(hread _).2 (by decide +kernel), (hlength 3).2 ⟨by decide, [0, 0, 0], rfl, ?_⟩, hencoding.2 ?_, ?_, ?_, ?_⟩
  · apply decode?_eq_some_iff_spells.1
    decide +kernel
  · intro bytes hbytes
    have hnone : decode? (trim "AAB=") = none := by decide +kernel
    rw [decode?_eq_some_iff_spells.2 hbytes] at hnone
    cases hnone
  · have hcheck : Configuration.paired.check = .ok () := by rfl
    exact ⟨hcheck, hchecked _ hcheck⟩
  · let f : Freshness := ⟨ByHand.key, List.replicate 12 1, List.replicate 12 2, rfl, rfl⟩
    have hp := Dispatcher.parameters_nestedDraft (n := 0) (by decide) (by decide +kernel)
    obtain ⟨r, hr⟩ := Dispatcher.exists_request_nestedDraft f hp (by decide +kernel)
    obtain ⟨k, -, hpadded, -⟩ := hsealed _ f r hr
    exact ⟨f, r, k, hr, hpadded⟩
  · rcases hrun : ByHand.run (.mint " a ") (ByHand.disk "k.db") with ⟨e, scene'⟩
    have hprints := ByHand.runs_usual.1.2
    unfold ByHand.Prints at hprints ⊢
    rw [hrun] at hprints ⊢
    obtain ⟨rfl, -⟩ := hprints
    unfold ByHand.run Errand.run at hrun
    obtain ⟨v, hv, hparse, hkey⟩ := hprinted _ ModuleRegistry.builtin _ _ _ _ _ hrun
    exact ⟨v, ⟨rfl, hv.trans String.empty_append⟩, hparse, hkey⟩

end Key

end Gatekeeper
