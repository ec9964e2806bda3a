import Gatekeeper.Capability.Key
import Gatekeeper.Proofs.Text.Base64

namespace Gatekeeper

namespace Text

theorem dropWhile_of_head {cs : List Char} (h : ∀ c ∈ cs.head?, isBlank c = false) : cs.dropWhile isBlank = cs := by
  cases cs with
  | nil => rfl
  | cons c cs => rw [List.dropWhile_cons_of_neg (by simp [h c rfl])]

theorem head_dropWhile (cs : List Char) : ∀ c ∈ (cs.dropWhile isBlank).head?, isBlank c = false := by
  intro c hc
  have h := List.head?_dropWhile_not isBlank cs
  rwa [Option.mem_def.1 hc] at h

theorem trimChars_trimChars (cs : List Char) : trimChars (trimChars cs) = trimChars cs := by
  obtain ⟨blanks, hblanks⟩ := List.dropWhile_suffix (l := (cs.dropWhile isBlank).reverse) isBlank
  have hsplit : cs.dropWhile isBlank = trimChars cs ++ blanks.reverse := by
    rw [trimChars, ← List.reverse_append, hblanks, List.reverse_reverse]
  have hstart : ∀ c ∈ (trimChars cs).head?, isBlank c = false := by
    intro c hc
    refine head_dropWhile cs c ?_
    rw [hsplit, List.head?_append, hc]
    rfl
  have hend : (trimChars cs).reverse.dropWhile isBlank = (trimChars cs).reverse := by
    rw [trimChars, List.reverse_reverse]
    exact dropWhile_of_head (head_dropWhile _)
  rw [trimChars, dropWhile_of_head hstart, hend, List.reverse_reverse]

theorem trim_trim (s : String) : trim (trim s) = trim s := by
  rw [trim, trim, String.toList_ofList, trimChars_trimChars]

theorem trim_of_forall {s : String} (h : ∀ c ∈ s.toList, isBlank c = false) : trim s = s := by
  have hstart : s.toList.dropWhile isBlank = s.toList :=
    dropWhile_of_head fun c hc ↦ h c (List.mem_of_mem_head? hc)
  have hend : s.toList.reverse.dropWhile isBlank = s.toList.reverse :=
    dropWhile_of_head fun c hc ↦ h c (List.mem_reverse.1 (List.mem_of_mem_head? hc))
  rw [trim, trimChars, hstart, hend, List.reverse_reverse, String.ofList_toList]

namespace Base64

theorem isBlank_symbol (n : Nat) : isBlank (symbol n) = false := by
  have hsmall : ∀ m < 63, isBlank (symbol m) = false := by decide
  rcases Nat.lt_or_ge n 63 with h | h
  · exact hsmall n h
  · rw [symbol, if_neg (by omega), if_neg (by omega), if_neg (by omega), if_neg (by omega)]
    rfl

theorem isBlank_of_mem_symbols {bytes : Bytes} {c : Char} (h : c ∈ symbols bytes) : isBlank c = false := by
  have hfiller : isBlank '=' = false := rfl
  fun_induction symbols bytes with
  | case1 => cases h
  | case2 | case3 =>
    simp only [List.mem_cons, List.not_mem_nil, or_false] at h
    rcases h with rfl | rfl | rfl | rfl <;> simp only [isBlank_symbol, hfiller]
  | case4 x y z rest ih =>
    simp only [List.mem_cons] at h
    rcases h with rfl | rfl | rfl | rfl | h
    · exact isBlank_symbol _
    · exact isBlank_symbol _
    · exact isBlank_symbol _
    · exact isBlank_symbol _
    · exact ih h

theorem trim_encode (bytes : Bytes) : trim (encode bytes) = encode bytes := by
  apply trim_of_forall
  rw [encode_eq, String.toList_ofList]
  exact fun c ↦ isBlank_of_mem_symbols

end Base64

end Text

theorem Key.ofBase64_toBase64 (k : Key) : Key.ofBase64 k.toBase64 = .ok k := by
  rw [ofBase64, toBase64, Text.Base64.trim_encode, Text.Base64.decode?_encode]
  exact ofBytes_eq_ok_iff.2 rfl

end Gatekeeper
