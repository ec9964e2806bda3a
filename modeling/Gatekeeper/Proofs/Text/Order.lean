import Gatekeeper.Text.Bytes

namespace Gatekeeper.Bytes

theorem ofString_eq_flatMap (s : String) : ofString s = s.toList.flatMap String.utf8EncodeChar := by
  have h : s.toByteArray = s.toList.utf8Encode := by
    rw [← String.toByteArray_ofList, String.ofList_toList]
  rw [ofString, String.toUTF8, h, List.utf8Encode, List.data_toByteArray]

theorem utf8EncodeChar_append_lt {c d : Char} (h : c < d) (rest rest' : Bytes) :
    String.utf8EncodeChar c ++ rest < String.utf8EncodeChar d ++ rest' := by
  have hlt : c.val.toNat < d.val.toNat := h
  have hmax : d.val.toNat < 1114112 := by
    have hvalid := d.valid
    simp only [UInt32.isValidChar, Nat.isValidChar] at hvalid
    omega
  unfold String.utf8EncodeChar
  dsimp only
  generalize c.val.toNat = m at *
  generalize d.val.toNat = n at *
  have hbyte (v k b : Nat) (hb : b + k ≤ 256) (hk : 0 < k) : (v % k + b) % 2 ^ 8 = v % k + b := by
    have hdigit := Nat.mod_lt v hk
    exact Nat.mod_eq_of_lt (by omega)
  have hm : m / 262144 % 8 = m / 262144 := Nat.mod_eq_of_lt (by omega)
  have hn : n / 262144 % 8 = n / 262144 := Nat.mod_eq_of_lt (by omega)
  repeat' split
  all_goals
    simp only [List.cons_append, List.cons_lt_cons_iff, UInt8.lt_iff_toNat_lt, UInt8.toNat_ofNat',
      ← UInt8.toNat_inj, hbyte, Nat.reduceAdd, Nat.reduceLeDiff, Nat.reduceLT]
    omega

theorem ofString_lt_ofString {a b : String} (h : a < b) : ofString a < ofString b := by
  rw [ofString_eq_flatMap, ofString_eq_flatMap]
  have h : a.toList < b.toList := h
  generalize a.toList = as at *
  generalize b.toList = bs at *
  induction h with
  | @nil c cs =>
    obtain ⟨b, bytes, hc⟩ := List.exists_cons_of_ne_nil (String.utf8EncodeChar_ne_nil (c := c))
    rw [List.flatMap_cons, hc]
    exact .nil
  | rel h => exact utf8EncodeChar_append_lt h _ _
  | cons _ ih => exact List.append_left_lt ih

/-- Control characters are the only ones whose bytes are control bytes. -/
theorem blank_le_of_mem_utf8EncodeChar {c : Char} (hc : 0x20 ≤ c.toNat) {b : UInt8}
    (hb : b ∈ String.utf8EncodeChar c) : 0x20 ≤ b.toNat := by
  -- A byte is the character itself, or it is one of several and has its highest bit set.
  have hhigh (v k m : Nat) (hm : 128 ≤ m ∧ m + k ≤ 256) (hk : 0 < k) :
      0x20 ≤ (UInt8.ofNat (v % k + m)).toNat := by
    have hdigit := Nat.mod_lt v hk
    rw [UInt8.toNat_ofNat', Nat.mod_eq_of_lt (by omega)]
    omega
  have hself : c.val.toNat ≤ 0x7f → 0x20 ≤ (UInt8.ofNat c.val.toNat).toNat := by
    intro hlow
    rw [UInt8.toNat_ofNat', Nat.mod_eq_of_lt (by omega)]
    exact hc
  unfold String.utf8EncodeChar at hb
  dsimp only at hb
  repeat' split at hb
  all_goals
    simp only [List.mem_cons, List.not_mem_nil, or_false] at hb
    rcases hb with rfl | rfl | rfl | rfl <;>
    first
    | exact hself (by assumption)
    | exact hhigh _ _ _ (by decide) (by decide)

end Gatekeeper.Bytes
