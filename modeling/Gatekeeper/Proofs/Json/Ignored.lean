import Gatekeeper.Proofs.Json.Grammar

namespace Gatekeeper.Json

variable {cs cs' rest : List Char} {c : Char} {v : Json} {first : Bool}

section

variable {fuel : Nat} {opened : List Bracket} {b : Bracket}

def awaited : Bool → Awaited
  | true => .first
  | false => .next

theorem skipSpace_of_skipSpace (h : skipSpace cs = c :: rest) : skipSpace (c :: rest) = c :: rest := by
  have hhead := List.head?_dropWhile_not isSpace cs
  rw [skipSpace] at h
  rw [h] at hhead
  exact List.dropWhile_cons_of_neg (Bool.eq_false_iff.1 hhead)

theorem skipWithin_value_congr (h : skipSpace cs = skipSpace cs') :
    skipWithin fuel .value opened cs = skipWithin fuel .value opened cs' := by
  cases fuel with
  | zero => rfl
  | succ fuel => simp only [skipWithin, h]

theorem skipWithin_closing (h : skipSpace cs = b.closing :: rest) :
    skipWithin (fuel + 1) (awaited first) (b :: opened) cs = skipWithin fuel .next opened rest := by
  have hcomma : b.closing ≠ ',' := by cases b <;> decide
  cases first <;> simp [awaited, skipWithin, h, hcomma]

theorem skipWithin_item (h : Next ']' first cs cs') :
    skipWithin (fuel + 1) (awaited first) (.square :: opened) cs =
      skipWithin fuel .value (.square :: opened) cs' := by
  cases h with
  | first hcs hc => simp [awaited, skipWithin, hcs, Bracket.closing, hc, skipName]
  | comma hcs hclosing hmid hc =>
    simp only [awaited, skipWithin, hcs, skipName, if_true]
    exact skipWithin_value_congr (hmid.trans (skipSpace_of_skipSpace hmid).symm)

theorem skipName_curly {quoted named : List Char} {k : String} (h : skipSpace cs = '"' :: quoted)
    (hname : readString quoted = .ok (k, named)) (hcolon : skipSpace named = ':' :: cs') :
    skipName .curly cs = .ok cs' := by
  simp only [skipName, h, skipString_of_readString hname, readColon_eq_ok_iff.2 hcolon]

theorem skipWithin_field {quoted named : List Char} {k : String} (h : Next '\x7d' first cs ('"' :: quoted))
    (hname : readString quoted = .ok (k, named)) (hcolon : skipSpace named = ':' :: cs') :
    skipWithin (fuel + 1) (awaited first) (.curly :: opened) cs =
      skipWithin fuel .value (.curly :: opened) cs' := by
  cases h with
  | first hcs hc =>
    simp [awaited, skipWithin, hcs, Bracket.closing, skipName_curly (skipSpace_of_skipSpace hcs) hname hcolon]
  | comma hcs hclosing hmid hc => simp [awaited, skipWithin, hcs, skipName_curly hmid hname hcolon]

end

mutual

theorem skipWithin_of_writes {cs rest : List Char} {v : Json} (h : Writes cs v rest) :
    ∃ n, n + 1 + 2 * rest.length ≤ 2 * cs.length ∧ ∀ fuel opened,
      skipWithin (fuel + n) .value opened cs = skipWithin fuel .next opened rest := by
  have hlt := h.length_lt
  match h with
  | .scalar hcs hc hread =>
    refine ⟨1, by omega, fun fuel opened ↦ ?_⟩
    simp only [skipWithin, hcs]
    split
    next heq => cases heq
    next heq => exact absurd (List.cons.inj heq).1 hc.1
    next heq =>
      cases heq
      rw [if_neg hc.2, (scalarRead hread).skips]
  | .array hcs hvs =>
    obtain ⟨n, hn, hskip⟩ := skipWithin_of_writesItems hvs
    have hlen := length_lt_of_skipSpace hcs
    refine ⟨n + 1, by omega, fun fuel opened ↦ ?_⟩
    rw [← Nat.add_assoc, skipWithin, hcs]
    exact hskip fuel opened
  | .object hcs hfs =>
    obtain ⟨n, hn, hskip⟩ := skipWithin_of_writesFields hfs
    have hlen := length_lt_of_skipSpace hcs
    refine ⟨n + 1, by omega, fun fuel opened ↦ ?_⟩
    rw [← Nat.add_assoc, skipWithin, hcs]
    exact hskip fuel opened

theorem skipWithin_of_writesItems {first : Bool} {cs rest : List Char} {vs : List Json}
    (h : WritesItems first cs vs rest) :
    ∃ n, n + 2 * rest.length ≤ 2 * cs.length ∧ ∀ fuel opened,
      skipWithin (fuel + n) (awaited first) (.square :: opened) cs = skipWithin fuel .next opened rest := by
  match h with
  | .nil hcs =>
    have hlen := length_lt_of_skipSpace hcs
    exact ⟨1, by omega, fun fuel opened ↦ skipWithin_closing hcs⟩
  | .cons hnext hv hvs =>
    obtain ⟨n, hn, hvalue⟩ := skipWithin_of_writes hv
    obtain ⟨m, hm, hitems⟩ := skipWithin_of_writesItems hvs
    have hlen := hnext.length_le
    refine ⟨m + n + 1, by omega, fun fuel opened ↦ ?_⟩
    rw [← Nat.add_assoc, skipWithin_item hnext, ← Nat.add_assoc, hvalue]
    exact hitems fuel opened

theorem skipWithin_of_writesFields {first : Bool} {cs rest : List Char} {fs : List (String × Json)}
    (h : WritesFields first cs fs rest) :
    ∃ n, n + 2 * rest.length ≤ 2 * cs.length ∧ ∀ fuel opened,
      skipWithin (fuel + n) (awaited first) (.curly :: opened) cs = skipWithin fuel .next opened rest := by
  match h with
  | .nil hcs =>
    have hlen := length_lt_of_skipSpace hcs
    exact ⟨1, by omega, fun fuel opened ↦ skipWithin_closing hcs⟩
  | .cons hnext hname hcolon hv hfs =>
    obtain ⟨n, hn, hvalue⟩ := skipWithin_of_writes hv
    obtain ⟨m, hm, hfields⟩ := skipWithin_of_writesFields hfs
    have hlen := hnext.length_le
    have hnamed := length_lt_of_readString hname
    have hcs' := length_lt_of_skipSpace hcolon
    rw [List.length_cons] at hlen
    refine ⟨m + n + 1, by omega, fun fuel opened ↦ ?_⟩
    rw [← Nat.add_assoc, skipWithin_field hnext hname hcolon, ← Nat.add_assoc, hvalue]
    exact hfields fuel opened

end

theorem skipValue_of_writes (h : Writes cs v rest) : skipValue cs = .ok rest := by
  obtain ⟨n, hn, hskip⟩ := skipWithin_of_writes h
  obtain ⟨fuel, hfuel⟩ : ∃ fuel, 2 * cs.length + 2 = fuel + 1 + n := ⟨2 * cs.length + 1 - n, by omega⟩
  rw [skipValue, hfuel, hskip]
  rfl

end Gatekeeper.Json
