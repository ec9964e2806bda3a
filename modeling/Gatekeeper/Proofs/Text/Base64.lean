import Gatekeeper.Text.Base64

namespace Gatekeeper.Text.Base64

variable {a b c d : Char} {n : Nat} {out group bytes : Bytes} {x y z : UInt8}

theorem value?_symbol : ∀ n < 64, value? (symbol n) = some n := by decide

theorem value?_filler : value? '=' = none := by decide

theorem symbol_of_value? (h : value? c = some n) : n < 64 ∧ c = symbol n := by
  have hle (a b : Char) : a ≤ b ↔ a.toNat ≤ b.toNat := Iff.rfl
  have hchar (m : Nat) (hm : m = c.toNat) : c = Char.ofNat m := by rw [hm, Char.ofNat_toNat]
  simp only [value?, hle] at h
  simp only [Char.reduceToNat] at h
  split at h
  next hc =>
    obtain rfl := Option.some.inj h
    rw [symbol, if_pos (by omega)]
    exact ⟨by omega, hchar _ (by omega)⟩
  · split at h
    next hc =>
      obtain rfl := Option.some.inj h
      rw [symbol, if_neg (by omega), if_pos (by omega)]
      exact ⟨by omega, hchar _ (by omega)⟩
    · split at h
      next hc =>
        obtain rfl := Option.some.inj h
        rw [symbol, if_neg (by omega), if_neg (by omega), if_pos (by omega)]
        exact ⟨by omega, hchar _ (by omega)⟩
      · split at h
        next hc =>
          obtain rfl := Option.some.inj h
          exact ⟨by omega, hc⟩
        · split at h
          next hc =>
            obtain rfl := Option.some.inj h
            exact ⟨by omega, hc⟩
          · cases h

def symbols : Bytes → List Char
  | [] => []
  | [x] => [symbol (x.toNat / 4), symbol (x.toNat % 4 * 16), '=', '=']
  | [x, y] =>
    [symbol (x.toNat / 4), symbol (x.toNat % 4 * 16 + y.toNat / 16), symbol (y.toNat % 16 * 4), '=']
  | x :: y :: z :: rest =>
    symbol (x.toNat / 4) :: symbol (x.toNat % 4 * 16 + y.toNat / 16) ::
      symbol (y.toNat % 16 * 4 + z.toNat / 64) :: symbol (z.toNat % 64) :: symbols rest

theorem encodeOnto_eq (out : List Char) (bytes : Bytes) :
    encodeOnto out bytes = (symbols bytes).reverse ++ out := by
  fun_induction encodeOnto out bytes with
  | case1 | case2 | case3 => rfl
  | case4 out x y z rest ih => simp [ih, symbols]

theorem encode_eq (bytes : Bytes) : encode bytes = String.ofList (symbols bytes) := by
  rw [encode, encodeOnto_eq, List.append_nil, List.reverse_reverse]

theorem toNat_ofNat (h : n < 256) : (UInt8.ofNat n).toNat = n := UInt8.toNat_ofNat_of_lt h

theorem ofNat_eq (x : UInt8) (h : n = x.toNat) : UInt8.ofNat n = x := by rw [h, UInt8.ofNat_toNat]

theorem decodeGroup_eq_some_iff : decodeGroup a b c d = some group ↔
    ∃ x y z, group = [z, y, x] ∧ [a, b, c, d] = symbols [x, y, z] := by
  constructor
  · intro h
    unfold decodeGroup at h
    split at h
    next x y z w hx hy hz hw =>
      obtain ⟨hx, rfl⟩ := symbol_of_value? hx
      obtain ⟨hy, rfl⟩ := symbol_of_value? hy
      obtain ⟨hz, rfl⟩ := symbol_of_value? hz
      obtain ⟨hw, rfl⟩ := symbol_of_value? hw
      refine ⟨_, _, _, (Option.some.inj h).symm, ?_⟩
      rw [symbols, toNat_ofNat (by omega), toNat_ofNat (by omega), toNat_ofNat (by omega)]
      congr <;> omega
    · cases h
  · rintro ⟨x, y, z, rfl, h⟩
    have hx := x.toNat_lt
    have hy := y.toNat_lt
    have hz := z.toNat_lt
    simp only [symbols, List.cons.injEq, and_true] at h
    obtain ⟨rfl, rfl, rfl, rfl⟩ := h
    simp only [decodeGroup, value?_symbol (x.toNat / 4) (by omega),
      value?_symbol (x.toNat % 4 * 16 + y.toNat / 16) (by omega),
      value?_symbol (y.toNat % 16 * 4 + z.toNat / 64) (by omega), value?_symbol (z.toNat % 64) (by omega)]
    rw [ofNat_eq z (by omega), ofNat_eq y (by omega), ofNat_eq x (by omega)]

theorem decodeTail_eq_some_iff : decodeTail a b c = some group ↔
    ∃ x ys, ys.length < 2 ∧ group = ys.reverse ++ [x] ∧ [a, b, c, '='] = symbols (x :: ys) := by
  constructor
  · intro h
    unfold decodeTail at h
    split at h
    next x y z hx hy hz =>
      split at h
      next hspare =>
        obtain ⟨hx, rfl⟩ := symbol_of_value? hx
        obtain ⟨hy, rfl⟩ := symbol_of_value? hy
        obtain ⟨hz, rfl⟩ := symbol_of_value? hz
        refine ⟨_, [_], by simp, (Option.some.inj h).symm, ?_⟩
        rw [symbols, toNat_ofNat (by omega), toNat_ofNat (by omega)]
        congr <;> omega
      · cases h
    next x y hx hy hz =>
      split at h
      next hspare =>
        obtain ⟨rfl, hspare⟩ := hspare
        obtain ⟨hx, rfl⟩ := symbol_of_value? hx
        obtain ⟨hy, rfl⟩ := symbol_of_value? hy
        refine ⟨_, [], by simp, (Option.some.inj h).symm, ?_⟩
        rw [symbols, toNat_ofNat (by omega)]
        congr <;> omega
      · cases h
    · cases h
  · rintro ⟨x, ys, hys, rfl, h⟩
    have hx := x.toNat_lt
    cases ys with
    | nil =>
      simp only [symbols, List.cons.injEq, and_true] at h
      obtain ⟨rfl, rfl, rfl⟩ := h
      simp only [decodeTail, value?_symbol (x.toNat / 4) (by omega),
        value?_symbol (x.toNat % 4 * 16) (by omega), value?_filler]
      rw [if_pos ⟨trivial, by omega⟩, ofNat_eq x (by omega)]
      rfl
    | cons y ys =>
      rw [List.length_cons] at hys
      obtain rfl : ys = [] := List.eq_nil_of_length_eq_zero (by omega)
      have hy := y.toNat_lt
      simp only [symbols, List.cons.injEq, and_true] at h
      obtain ⟨rfl, rfl, rfl⟩ := h
      simp only [decodeTail, value?_symbol (x.toNat / 4) (by omega),
        value?_symbol (x.toNat % 4 * 16 + y.toNat / 16) (by omega),
        value?_symbol (y.toNat % 16 * 4) (by omega)]
      rw [if_pos (by omega), ofNat_eq y (by omega), ofNat_eq x (by omega)]
      rfl

theorem decodeOnto_group {rest : List Char} (h : decodeGroup a b c d = some group) :
    decodeOnto out (a :: b :: c :: d :: rest) = decodeOnto (group ++ out) rest := by
  cases rest with
  | nil =>
    -- The last group has a branch of its own, which leads to the same place without padding.
    have hd : d ≠ '=' := by
      rintro rfl
      simp [decodeGroup, value?_filler] at h
    simp only [decodeOnto, if_neg hd, h, Option.map_some]
  | cons e rest =>
    rw [decodeOnto, h]
    exact List.cons_ne_nil e rest

theorem decodeOnto_symbols (out bytes : Bytes) :
    decodeOnto out (symbols bytes) = some (bytes.reverse ++ out) := by
  induction bytes using symbols.induct generalizing out with
  | case1 => rfl
  | case2 x =>
    have h := decodeTail_eq_some_iff.2 ⟨x, [], by simp, rfl, rfl⟩
    rw [symbols, decodeOnto, if_pos rfl, h]
    rfl
  | case3 x y =>
    have h := decodeTail_eq_some_iff.2 ⟨x, [y], by simp, rfl, rfl⟩
    rw [symbols, decodeOnto, if_pos rfl, h]
    rfl
  | case4 x y z rest ih =>
    have h := decodeGroup_eq_some_iff.2 ⟨x, y, z, rfl, rfl⟩
    rw [symbols, decodeOnto_group h, ih]
    simp

theorem symbols_of_decodeOnto {cs : List Char} {read : Bytes} (h : decodeOnto out cs = some read) :
    ∃ bytes, read = bytes.reverse ++ out ∧ cs = symbols bytes := by
  fun_induction decodeOnto out cs with
  | case1 out =>
    obtain rfl := Option.some.inj h
    exact ⟨[], rfl, rfl⟩
  | case2 out a b c d =>
    obtain ⟨group, hgroup, rfl⟩ := Option.map_eq_some_iff.1 h
    split at hgroup
    next hd =>
      obtain ⟨x, ys, -, rfl, hsymbols⟩ := decodeTail_eq_some_iff.1 hgroup
      exact ⟨x :: ys, by simp, hd ▸ hsymbols⟩
    · obtain ⟨x, y, z, rfl, hsymbols⟩ := decodeGroup_eq_some_iff.1 hgroup
      exact ⟨[x, y, z], rfl, hsymbols⟩
  | case3 out a b c d rest hrest group hgroup ih =>
    obtain ⟨x, y, z, rfl, hsymbols⟩ := decodeGroup_eq_some_iff.1 hgroup
    obtain ⟨bytes, rfl, rfl⟩ := ih h
    refine ⟨x :: y :: z :: bytes, by simp, ?_⟩
    simp only [symbols, List.cons.injEq, and_true] at hsymbols
    obtain ⟨rfl, rfl, rfl, rfl⟩ := hsymbols
    rfl
  | case4 | case5 => cases h

/-- Just what writing produces is read. -/
theorem decode?_eq_some_iff {s : String} : decode? s = some bytes ↔ s = encode bytes := by
  rw [decode?, encode_eq]
  constructor
  · intro h
    obtain ⟨read, hread, rfl⟩ := Option.map_eq_some_iff.1 h
    obtain ⟨bytes, rfl, hsymbols⟩ := symbols_of_decodeOnto hread
    rw [List.append_nil, List.reverse_reverse, ← hsymbols, String.ofList_toList]
  · rintro rfl
    rw [String.toList_ofList, decodeOnto_symbols]
    simp

theorem decode?_encode (bytes : Bytes) : decode? (encode bytes) = some bytes :=
  decode?_eq_some_iff.2 rfl

theorem encode_injective {first second : Bytes} (h : encode first = encode second) : first = second := by
  have hread := decode?_encode first
  rw [h, decode?_encode second] at hread
  exact (Option.some.inj hread).symm

end Gatekeeper.Text.Base64
