import Gatekeeper.Json.Scalar
import Gatekeeper.Proofs.Json.Text

namespace Gatekeeper.Json

variable {c : Char} {cs rest : List Char} {negative : Bool}

theorem number?_lowerDigit :
    ∀ n < 32, Text.Hex.number? ['0', '0', Text.Hex.lowerDigit (n / 16), Text.Hex.lowerDigit (n % 16)] =
      some n := by decide

theorem readEscape_escapeChar (h : escapeChar c = '\\' :: cs) : readEscape (cs ++ rest) = .ok (c, rest) := by
  unfold escapeChar at h
  split at h
  next hc =>
    obtain rfl := (List.cons.inj h).2
    rw [hc]
    rfl
  · split at h
    next hc =>
      obtain rfl := (List.cons.inj h).2
      rw [hc]
      rfl
    next hquote hslash =>
      split at h
      next hlow =>
        have hchar (n : Nat) (hn : c.toNat = n) : c = Char.ofNat n := by rw [← hn, Char.ofNat_toNat]
        split at h
        next hn => obtain rfl := (List.cons.inj h).2; rw [hchar _ hn]; rfl
        next hn => obtain rfl := (List.cons.inj h).2; rw [hchar _ hn]; rfl
        next hn => obtain rfl := (List.cons.inj h).2; rw [hchar _ hn]; rfl
        next hn => obtain rfl := (List.cons.inj h).2; rw [hchar _ hn]; rfl
        next hn => obtain rfl := (List.cons.inj h).2; rw [hchar _ hn]; rfl
        · obtain rfl := (List.cons.inj h).2
          have hnumber := number?_lowerDigit c.toNat hlow
          simp only [List.cons_append, List.nil_append, readEscape, readUnit, hnumber]
          rw [if_pos (by omega), Char.ofNat_toNat]
      · exact absurd (List.cons.inj h).1 hslash

theorem escapeChar_cases (c : Char) :
    (∃ cs, escapeChar c = '\\' :: cs) ∨ escapeChar c = [c] ∧ c ≠ '"' ∧ c ≠ '\\' ∧ ¬ c.toNat < 0x20 := by
  unfold escapeChar
  split
  · exact .inl ⟨_, rfl⟩
  · split
    · exact .inl ⟨_, rfl⟩
    next hquote hslash =>
      split
      · split <;> exact .inl ⟨_, rfl⟩
      next hlow => exact .inr ⟨rfl, hquote, hslash, hlow⟩

theorem readStringOnto_escapeChar (fuel : Nat) (out : List Char) (c : Char) (rest : List Char) :
    readStringOnto (fuel + 1) out (escapeChar c ++ rest) = readStringOnto fuel (c :: out) rest := by
  rcases escapeChar_cases c with ⟨cs, h⟩ | ⟨h, hquote, hslash, hlow⟩
  · have hread : readEscape (cs ++ rest) = .ok (c, rest) := readEscape_escapeChar h
    rw [h, List.cons_append, readStringOnto, if_neg (by decide), if_pos rfl, hread]
  · rw [h, List.singleton_append, readStringOnto, if_neg hquote, if_neg hslash, if_neg hlow]

theorem readStringOnto_quoted (fuel : Nat) (out cs rest : List Char) (h : cs.length < fuel) :
    readStringOnto fuel out (cs.flatMap escapeChar ++ '"' :: rest) =
      .ok (String.ofList (out.reverse ++ cs), rest) := by
  induction cs generalizing fuel out with
  | nil =>
    obtain ⟨fuel, rfl⟩ := Nat.exists_eq_succ_of_ne_zero (Nat.ne_of_gt h)
    simp [readStringOnto]
  | cons c cs ih =>
    obtain ⟨fuel, rfl⟩ := Nat.exists_eq_succ_of_ne_zero (Nat.ne_of_gt (Nat.zero_lt_of_lt h))
    rw [List.flatMap_cons, List.append_assoc, readStringOnto_escapeChar, ih]
    · simp
    · simpa using h

theorem length_le_flatMap_escapeChar (cs : List Char) : cs.length ≤ (cs.flatMap escapeChar).length := by
  induction cs with
  | nil => simp
  | cons c cs ih =>
    have hc : 0 < (escapeChar c).length := by
      rcases escapeChar_cases c with ⟨cs, h⟩ | ⟨h, -⟩ <;> simp [h]
    simp only [List.flatMap_cons, List.length_append, List.length_cons]
    omega

theorem readString_quoted (s : String) (rest : List Char) :
    readString (s.toList.flatMap escapeChar ++ '"' :: rest) = .ok (s, rest) := by
  have hlen := length_le_flatMap_escapeChar s.toList
  rw [readString, readStringOnto_quoted]
  · simp
  · simp only [List.length_append, List.length_cons]
    omega

theorem isSpace_iff : isSpace c ↔ c = ' ' ∨ c = '\t' ∨ c = '\n' ∨ c = '\r' := by
  simp [isSpace, or_assoc]

/-- What may stand behind a value: a blank, a comma or a closing bracket. -/
def Ends (rest : List Char) : Prop := ∀ c ∈ rest.head?, isSpace c ∨ c = ',' ∨ c = ']' ∨ c = '\x7d'

theorem Ends.nil : Ends [] := by simp [Ends]

theorem Ends.cons (h : isSpace c ∨ c = ',' ∨ c = ']' ∨ c = '\x7d') : Ends (c :: cs) := by
  simpa [Ends] using h

theorem Ends.not_isDigit (h : Ends (c :: cs)) : isDigit c = false := by
  rcases h c rfl with hspace | rfl | rfl | rfl
  · rcases isSpace_iff.1 hspace with rfl | rfl | rfl | rfl <;> rfl
  all_goals rfl

theorem isDigit_of_mem_toDigits {n : Nat} (h : c ∈ Nat.toDigits 10 n) : isDigit c :=
  Nat.isDigit_of_mem_toDigits (by decide) (by decide) h

theorem le_ofDigitChars (digits : List Char) (n : Nat) : n ≤ Nat.ofDigitChars 10 digits n := by
  rw [Nat.ofDigitChars_eq_ofDigitChars_zero]
  have hpos : 0 < 10 ^ digits.length := Nat.pow_pos (by decide)
  exact Nat.le_trans (Nat.le_mul_of_pos_left n hpos) (Nat.le_add_right _ _)

theorem readInteger_digits {digits : List Char} (hdigits : ∀ c ∈ digits, isDigit c) (hrest : Ends rest)
    (n : Nat) (h : Nat.ofDigitChars 10 digits n ≤ significandLimit) :
    readInteger negative n (digits ++ rest) =
      endInteger negative (Nat.ofDigitChars 10 digits n) rest := by
  -- The limit is not passed on the way, since gathering digits never makes a number less.
  induction digits generalizing n with
  | nil =>
    cases rest with
    | nil => rfl
    | cons c cs =>
      rw [List.nil_append, readInteger, hrest.not_isDigit]
      rfl
  | cons d ds ih =>
    have hd : isDigit d := hdigits d List.mem_cons_self
    have hnext : n * 10 + digitValue d = 10 * n + (d.toNat - '0'.toNat) := by
      rw [Nat.mul_comm]
      rfl
    rw [Nat.ofDigitChars_cons, ← hnext] at h ⊢
    have hle := Nat.le_trans (le_ofDigitChars ds _) h
    rw [List.cons_append, readInteger, if_pos hd, if_neg (Nat.not_lt.2 hle)]
    exact ih (fun c hc ↦ hdigits c (List.mem_cons_of_mem _ hc)) _ h

theorem toDigits_eq_cons {n : Nat} (h : 0 < n) : ∃ c cs, Nat.toDigits 10 n = c :: cs ∧ c ≠ '0' := by
  induction n using Nat.base_induction 10 (by decide) with
  | single m hm =>
    refine ⟨_, [], Nat.toDigits_of_lt_base hm, fun hzero ↦ ?_⟩
    rw [Nat.digitChar_eq_zero] at hzero
    omega
  | digit m k hk hm ih =>
    obtain ⟨c, cs, hcs, hc⟩ := ih hm
    refine ⟨c, cs ++ Nat.toDigits 10 k, ?_, hc⟩
    rw [← Nat.toDigits_append_toDigits (by decide) hm hk, hcs, List.cons_append]

theorem readNumber_toDigits (negative : Bool) {n : Nat} (h : n ≤ significandLimit) (hrest : Ends rest) :
    readNumber negative (Nat.toDigits 10 n ++ rest) = endInteger negative n rest := by
  rcases Nat.eq_zero_or_pos n with rfl | hn
  · rw [Nat.toDigits_zero]
    cases rest with
    | nil => rfl
    | cons c cs =>
      change (if isDigit c then _ else _) = _
      rw [hrest.not_isDigit]
      rfl
  · obtain ⟨c, cs, hcs, hc⟩ := toDigits_eq_cons hn
    have hdigits : ∀ d ∈ c :: cs, isDigit d := fun d hd ↦ isDigit_of_mem_toDigits (hcs ▸ hd)
    have hvalue : Nat.ofDigitChars 10 cs (digitValue c) = n := by
      have hall : Nat.ofDigitChars 10 (c :: cs) 0 = n := hcs ▸ Nat.ofDigitChars_ten_toDigits
      rwa [Nat.ofDigitChars_cons, Nat.mul_zero, Nat.zero_add] at hall
    rw [hcs, List.cons_append, readNumber, if_pos (hdigits c List.mem_cons_self),
      readInteger_digits (fun d hd ↦ hdigits d (List.mem_cons_of_mem _ hd)) hrest _ (hvalue ▸ h), hvalue]
    exact hc

theorem endInteger_of_ends (hrest : Ends rest) (n : Nat) : endInteger negative n rest =
    if !negative then .ok (.integer n, rest)
    else if n = 0 ∨ 9223372036854775808 < n then (ofParts true n 0).map (·, rest)
    else .ok (.integer (-n), rest) := by
  cases rest with
  | nil => rfl
  | cons c cs =>
    rcases hrest c rfl with hspace | rfl | rfl | rfl
    · rcases isSpace_iff.1 hspace with rfl | rfl | rfl | rfl <;> rfl
    all_goals rfl

theorem readScalar_integerText {n : Int} (hleast : leastInteger ≤ n) (hgreatest : n ≤ greatestInteger)
    (hrest : Ends rest) : ∃ c cs, integerText n = c :: cs ∧ (isDigit c ∨ c = '-') ∧
      readScalar c (cs ++ rest) = .ok (.integer n, rest) := by
  unfold leastInteger at hleast
  unfold greatestInteger at hgreatest
  have hlimit : n.natAbs ≤ significandLimit := by
    unfold significandLimit
    omega
  have hread (negative : Bool) := readNumber_toDigits negative hlimit hrest
  unfold integerText
  split
  next hneg =>
    refine ⟨_, _, rfl, .inr rfl, ?_⟩
    have hn : -(n.natAbs : Int) = n := by omega
    change readNumber true _ = _
    rw [hread, endInteger_of_ends hrest, if_neg (by decide), if_neg (by omega), hn]
  next hpos =>
    have hn : (n.natAbs : Int) = n := by omega
    cases hcs : Nat.toDigits 10 n.natAbs with
    | nil => exact absurd hcs Nat.toDigits_ne_nil
    | cons c cs =>
      have hdigit : isDigit c := isDigit_of_mem_toDigits (hcs ▸ List.mem_cons_self)
      have hne (d : Char) (hd : isDigit d = false) : c ≠ d := by
        rintro rfl
        rw [hdigit] at hd
        cases hd
      refine ⟨c, cs, rfl, .inl hdigit, ?_⟩
      rw [readScalar, if_neg (hne _ rfl), if_neg (hne _ rfl), if_neg (hne _ rfl), if_neg (hne _ rfl),
        if_neg (hne _ rfl), if_pos hdigit, ← List.cons_append, ← hcs, hread, endInteger_of_ends hrest]
      exact congrArg (fun n ↦ Except.ok (integer n, rest)) hn

end Gatekeeper.Json
