import Gatekeeper.Proofs.Text.Base64
import Mathlib.Data.Nat.Digits.Lemmas

namespace Gatekeeper.Text.Base64

variable {b d fillers fillers' : Nat} {ds ds' : List Nat} {bytes : Bytes} {cs : List Char} {x y z : UInt8}

def alphabet : List Char := "ABCDEFGHIJKLMNOPQRSTUVWXYZabcdefghijklmnopqrstuvwxyz0123456789+/".toList

def digit (d : Nat) : Char := alphabet.getD d '='

def number (b : Nat) (ds : List Nat) : Nat := Nat.ofDigits b ds.reverse

def byteNumber (bytes : Bytes) : Nat := number 256 (bytes.map UInt8.toNat)

/-- Digits of six bits that hold just the bits of some bytes. Two zero bits stand behind them for each filler,
and with the fillers there are four digits for three bytes. -/
structure Regroups (ds : List Nat) (fillers : Nat) (bytes : Bytes) : Prop where
  digits : ∀ d ∈ ds, d < 64
  few : fillers < 3
  groups : 3 * (ds.length + fillers) = 4 * (bytes.length + fillers)
  same : number 64 ds = 4 ^ fillers * byteNumber bytes

def Spells (cs : List Char) (bytes : Bytes) : Prop :=
  ∃ ds fillers, Regroups ds fillers bytes ∧ cs = ds.map digit ++ List.replicate fillers '='

theorem number_cons : number b (d :: ds) = d * b ^ ds.length + number b ds := by
  rw [number, List.reverse_cons, Nat.ofDigits_append, Nat.ofDigits_singleton, List.length_reverse, ← number]
  ring

theorem byteNumber_cons : byteNumber (x :: bytes) = x.toNat * 256 ^ bytes.length + byteNumber bytes := by
  rw [byteNumber, List.map_cons, number_cons, List.length_map, ← byteNumber]

theorem eq_of_number_eq (hb : 1 < b) (hlength : ds.length = ds'.length) (hds : ∀ d ∈ ds, d < b)
    (hds' : ∀ d ∈ ds', d < b) (h : number b ds = number b ds') : ds = ds' := by
  have hreverse : ds.reverse = ds'.reverse := by
    apply Nat.ofDigits_inj_of_len_eq hb
    · rw [List.length_reverse, List.length_reverse, hlength]
    · intro d hd
      exact hds d (List.mem_reverse.1 hd)
    · intro d hd
      exact hds' d (List.mem_reverse.1 hd)
    · exact h
  exact List.reverse_injective hreverse

theorem symbol_eq_digit : ∀ n < 64, symbol n = digit n := by decide

namespace Regroups

theorem power (h : Regroups ds fillers bytes) : 64 ^ ds.length = 4 ^ fillers * 256 ^ bytes.length := by
  have hbits : 6 * ds.length = 2 * fillers + 8 * bytes.length := by
    have hgroups := h.groups
    omega
  calc 64 ^ ds.length = 2 ^ (6 * ds.length) := by rw [Nat.pow_mul]
    _ = 2 ^ (2 * fillers) * 2 ^ (8 * bytes.length) := by rw [hbits, Nat.pow_add]
    _ = 4 ^ fillers * 256 ^ bytes.length := by rw [Nat.pow_mul, Nat.pow_mul]

theorem nil : Regroups [] 0 [] := ⟨by simp, by decide, rfl, rfl⟩

theorem one : Regroups [x.toNat / 4, x.toNat % 4 * 16] 2 [x] where
  digits d hd := by
    have hx := x.toNat_lt
    simp only [List.mem_cons, List.not_mem_nil, or_false] at hd
    omega
  few := by decide
  groups := rfl
  same := by
    simp only [number_cons, byteNumber_cons, List.length_cons, List.length_nil]
    simp only [number, byteNumber, List.reverse_nil, List.map_nil, Nat.ofDigits_nil]
    omega

theorem two : Regroups [x.toNat / 4, x.toNat % 4 * 16 + y.toNat / 16, y.toNat % 16 * 4] 1 [x, y] where
  digits d hd := by
    have hx := x.toNat_lt
    have hy := y.toNat_lt
    simp only [List.mem_cons, List.not_mem_nil, or_false] at hd
    omega
  few := by decide
  groups := rfl
  same := by
    simp only [number_cons, byteNumber_cons, List.length_cons, List.length_nil]
    simp only [number, byteNumber, List.reverse_nil, List.map_nil, Nat.ofDigits_nil]
    omega

theorem three (h : Regroups ds fillers bytes) :
    Regroups (x.toNat / 4 :: (x.toNat % 4 * 16 + y.toNat / 16) :: (y.toNat % 16 * 4 + z.toNat / 64) ::
      z.toNat % 64 :: ds) fillers (x :: y :: z :: bytes) where
  digits d hd := by
    have hx := x.toNat_lt
    have hy := y.toNat_lt
    have hz := z.toNat_lt
    simp only [List.mem_cons] at hd
    rcases hd with rfl | rfl | rfl | rfl | hd
    · omega
    · omega
    · omega
    · omega
    · exact h.digits d hd
  few := h.few
  groups := by
    have hgroups := h.groups
    simp only [List.length_cons]
    omega
  same := by
    have hbits : x.toNat / 4 * 64 ^ 3 + (x.toNat % 4 * 16 + y.toNat / 16) * 64 ^ 2 +
        (y.toNat % 16 * 4 + z.toNat / 64) * 64 + z.toNat % 64 =
        x.toNat * 256 ^ 2 + y.toNat * 256 + z.toNat := by
      omega
    simp only [number_cons, byteNumber_cons, List.length_cons, h.same]
    calc _ = (x.toNat / 4 * 64 ^ 3 + (x.toNat % 4 * 16 + y.toNat / 16) * 64 ^ 2 +
          (y.toNat % 16 * 4 + z.toNat / 64) * 64 + z.toNat % 64) * 64 ^ ds.length +
          4 ^ fillers * byteNumber bytes := by ring
      _ = _ := by
        rw [hbits, h.power]
        ring

theorem unique (h : Regroups ds fillers bytes) (h' : Regroups ds' fillers' bytes) :
    ds = ds' ∧ fillers = fillers' := by
  have hfew := h.few
  have hfew' := h'.few
  have hgroups := h.groups
  have hgroups' := h'.groups
  obtain rfl : fillers = fillers' := by omega
  have hlength : ds.length = ds'.length := by omega
  exact ⟨eq_of_number_eq (by decide) hlength h.digits h'.digits (h.same.trans h'.same.symm), rfl⟩

end Regroups

theorem spells_symbols (bytes : Bytes) : Spells (symbols bytes) bytes := by
  induction bytes using symbols.induct with
  | case1 => exact ⟨[], 0, .nil, rfl⟩
  | case2 x =>
    refine ⟨_, 2, .one, ?_⟩
    have hx := x.toNat_lt
    rw [symbols, symbol_eq_digit _ (by omega), symbol_eq_digit _ (by omega)]
    rfl
  | case3 x y =>
    refine ⟨_, 1, .two, ?_⟩
    have hx := x.toNat_lt
    have hy := y.toNat_lt
    rw [symbols, symbol_eq_digit _ (by omega), symbol_eq_digit _ (by omega), symbol_eq_digit _ (by omega)]
    rfl
  | case4 x y z rest ih =>
    obtain ⟨ds, fillers, hds, hrest⟩ := ih
    refine ⟨_, fillers, hds.three, ?_⟩
    have hx := x.toNat_lt
    have hy := y.toNat_lt
    have hz := z.toNat_lt
    rw [symbols, symbol_eq_digit _ (by omega), symbol_eq_digit _ (by omega), symbol_eq_digit _ (by omega),
      symbol_eq_digit _ (Nat.mod_lt _ (by decide)), hrest]
    rfl

/-- Bytes have one spelling, and it is the one that is written. -/
theorem spells_iff : Spells cs bytes ↔ cs = symbols bytes := by
  constructor
  · rintro ⟨ds, fillers, h, rfl⟩
    obtain ⟨ds', fillers', h', hsymbols⟩ := spells_symbols bytes
    obtain ⟨rfl, rfl⟩ := h.unique h'
    exact hsymbols.symm
  · rintro rfl
    exact spells_symbols bytes

theorem decode?_eq_some_iff_spells {s : String} : decode? s = some bytes ↔ Spells s.toList bytes := by
  rw [decode?_eq_some_iff, spells_iff, encode_eq]
  constructor
  · rintro rfl
    exact String.toList_ofList
  · intro h
    rw [← h, String.ofList_toList]

end Gatekeeper.Text.Base64
