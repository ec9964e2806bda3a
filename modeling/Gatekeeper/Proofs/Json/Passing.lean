import Gatekeeper.Json.Skip

namespace Gatekeeper.Json

variable {c : Char} {cs rest : List Char} {v : Json} {negative : Bool}

def IsNumber : Json → Prop
  | integer _ | double _ => True
  | _ => False

/-- What is read, if anything, is a number, and passing over it stops where reading stops. -/
def Passes (read : Read Json) (skipped : Except Fault (List Char)) : Prop :=
  ∀ v rest, read = .ok (v, rest) → v.IsNumber ∧ skipped = .ok rest

variable {skipped : Except Fault (List Char)}

@[simp] theorem passes_ok : Passes (.ok (v, rest)) skipped ↔ v.IsNumber ∧ skipped = .ok rest := by
  constructor
  · intro h
    exact h v rest rfl
  · rintro h _ _ ⟨⟩
    exact h

@[simp] theorem passes_error (fault : Fault) : Passes (.error fault) skipped := nofun

theorem passes_ofParts (significand : Nat) (e : Int) (rest : List Char) :
    Passes ((ofParts negative significand e).map (·, rest)) (.ok rest) := by
  intro v rest' h
  unfold ofParts at h
  dsimp only at h
  split at h <;> cases h
  exact ⟨trivial, rfl⟩

theorem dropWhile_digit (hc : isDigit c) : (c :: cs).dropWhile isDigit = cs.dropWhile isDigit :=
  List.dropWhile_cons_of_pos hc

theorem dropWhile_not_digit (hc : ¬ isDigit c) : (c :: cs).dropWhile isDigit = c :: cs :=
  List.dropWhile_cons_of_neg hc

theorem skipDigits_digit (hc : isDigit c) : skipDigits (c :: cs) = .ok (cs.dropWhile isDigit) := if_pos hc

theorem passes_readExponentDigits (significand : Nat) (start : Int) (down : Bool) (e : Nat) :
    Passes (readExponentDigits negative significand start down e cs) (.ok (cs.dropWhile isDigit)) := by
  fun_induction readExponentDigits negative significand start down e cs with
  | case1 => exact passes_error _
  | case2 e c rest hc =>
    rw [dropWhile_digit hc]
    exact passes_ok.2 ⟨trivial, rfl⟩
  | case3 e c rest hc e' hlimit ih =>
    rw [dropWhile_digit hc]
    exact ih
  | case4 e c rest hc =>
    rw [dropWhile_not_digit hc]
    exact passes_ofParts _ _ _
  | case5 => exact passes_ofParts _ _ _

theorem passes_readExponent (significand : Nat) (start : Int) :
    Passes (readExponent negative significand start cs) (skipExponent cs) := by
  unfold readExponent
  split
  next down digits heq =>
    have hsign : skipExponent cs = skipDigits digits := by
      split at heq
      · cases heq
        rfl
      · cases heq
        rfl
      next hplus hminus =>
        cases heq
        unfold skipExponent
        split
        · exact absurd rfl (hplus _)
        · exact absurd rfl (hminus _)
        · rfl
    rw [hsign]
    split
    · exact passes_error _
    · split
      next hc =>
        rw [skipDigits_digit hc]
        exact passes_readExponentDigits _ _ _ _
      · exact passes_error _

theorem passes_readOptionalExponent (significand : Nat) (e : Int) :
    Passes (readOptionalExponent negative significand e cs) (skipOptionalExponent cs) := by
  unfold skipOptionalExponent
  split
  · exact passes_readExponent _ _
  · exact passes_readExponent _ _
  next hlower hupper =>
    unfold readOptionalExponent
    split
    · exact absurd rfl (hlower _)
    · exact absurd rfl (hupper _)
    · exact passes_ofParts _ _ _

theorem passes_readFraction (e : Int) (count significand : Nat) :
    Passes (readFraction negative e count significand cs) (skipOptionalExponent (cs.dropWhile isDigit)) := by
  fun_induction readFraction negative e count significand cs with
  | case1 count significand c rest hc =>
    rw [dropWhile_digit hc]
    exact passes_readOptionalExponent _ _
  | case2 count significand c rest hc n hlimit ih =>
    rw [dropWhile_digit hc]
    exact ih
  | case3 => exact passes_error _
  | case4 count significand c rest hc =>
    rw [dropWhile_not_digit hc]
    exact passes_readOptionalExponent _ _
  | case5 => exact passes_error _
  | case6 => exact passes_readOptionalExponent _ _

theorem passes_readFraction_point (e : Int) (significand : Nat) :
    Passes (readFraction negative e 0 significand cs) (skipFraction ('.' :: cs)) := by
  have hpasses : Passes (readFraction negative e 0 significand cs)
      (skipOptionalExponent (cs.dropWhile isDigit)) := passes_readFraction _ _ _
  cases cs with
  | nil =>
    simp only [readFraction, if_pos]
    exact passes_error _
  | cons c rest =>
    by_cases hc : isDigit c
    · rw [dropWhile_digit hc] at hpasses
      simp only [skipFraction, skipDigits_digit hc]
      exact hpasses
    · simp only [readFraction, if_neg hc, if_pos]
      exact passes_error _

theorem passes_readLongInteger (significand e : Nat) :
    Passes (readLongInteger negative significand e cs) (skipFraction (cs.dropWhile isDigit)) := by
  fun_induction readLongInteger negative significand e cs with
  | case1 e c rest hc ih =>
    rw [dropWhile_digit hc]
    exact ih
  | case2 e rest hc =>
    rw [dropWhile_not_digit hc]
    exact passes_readFraction_point _ _
  | case3 e c rest hc hpoint =>
    have hskip : skipFraction (c :: rest) = skipOptionalExponent (c :: rest) := by
      unfold skipFraction
      split
      next heq => exact absurd (List.cons.inj heq).1 hpoint
      · rfl
    rw [dropWhile_not_digit hc, hskip]
    exact passes_readOptionalExponent _ _
  | case4 => exact passes_readOptionalExponent _ _

theorem passes_endInteger (significand : Nat) :
    Passes (endInteger negative significand cs) (skipFraction cs) := by
  unfold endInteger
  split
  · exact passes_readFraction_point _ _
  · exact passes_readExponent _ _
  · exact passes_readExponent _ _
  next hpoint hlower hupper =>
    have hskip : skipFraction cs = .ok cs := by
      unfold skipFraction
      split
      · exact absurd rfl (hpoint _)
      · unfold skipOptionalExponent
        split
        · exact absurd rfl (hlower _)
        · exact absurd rfl (hupper _)
        · rfl
    rw [hskip]
    split
    · exact passes_ok.2 ⟨trivial, rfl⟩
    · split
      · exact passes_ofParts _ _ _
      · exact passes_ok.2 ⟨trivial, rfl⟩

theorem passes_readInteger (significand : Nat) :
    Passes (readInteger negative significand cs) (skipFraction (cs.dropWhile isDigit)) := by
  fun_induction readInteger negative significand cs with
  | case1 significand c rest hc =>
    rw [dropWhile_digit hc]
    exact passes_readLongInteger _ _
  | case2 significand c rest hc n hlimit ih =>
    rw [dropWhile_digit hc]
    exact ih
  | case3 significand c rest hc =>
    rw [dropWhile_not_digit hc]
    exact passes_endInteger _
  | case4 => exact passes_endInteger _

theorem passes_readNumber : Passes (readNumber negative cs) (skipNumber cs) := by
  unfold readNumber
  split
  · exact passes_error _
  · split
    next c rest =>
      split
      · exact passes_error _
      next hc =>
        simp only [skipNumber, if_neg hc]
        exact passes_endInteger _
    · exact passes_endInteger _
  next c rest hzero =>
    split
    next hc =>
      have hskip : skipNumber (c :: rest) = skipFraction (rest.dropWhile isDigit) := by
        unfold skipNumber
        split
        next heq =>
          obtain ⟨rfl, -⟩ := List.cons.inj heq
          exact absurd rfl hzero
        · rw [skipDigits_digit hc]
      rw [hskip]
      exact passes_readInteger _
    · exact passes_error _

theorem length_lt_of_skipDigits (h : skipDigits cs = .ok rest) : rest.length < cs.length := by
  cases cs with
  | nil => cases h
  | cons c cs =>
    rw [skipDigits] at h
    split at h
    · cases h
      exact Nat.lt_succ_of_le (List.dropWhile_suffix _).length_le
    · cases h

theorem length_lt_of_skipExponent (h : skipExponent cs = .ok rest) : rest.length < cs.length := by
  unfold skipExponent at h
  split at h
  · exact Nat.lt_succ_of_lt (length_lt_of_skipDigits h)
  · exact Nat.lt_succ_of_lt (length_lt_of_skipDigits h)
  · exact length_lt_of_skipDigits h

theorem length_le_of_skipOptionalExponent (h : skipOptionalExponent cs = .ok rest) :
    rest.length ≤ cs.length := by
  unfold skipOptionalExponent at h
  split at h
  · exact Nat.le_succ_of_le (Nat.le_of_lt (length_lt_of_skipExponent h))
  · exact Nat.le_succ_of_le (Nat.le_of_lt (length_lt_of_skipExponent h))
  · cases h
    exact Nat.le_refl _

theorem length_le_of_skipFraction (h : skipFraction cs = .ok rest) : rest.length ≤ cs.length := by
  unfold skipFraction at h
  split at h
  · split at h
    · cases h
    next hdigits =>
      have hmid := length_lt_of_skipDigits hdigits
      have hrest := length_le_of_skipOptionalExponent h
      simp only [List.length_cons]
      omega
  · exact length_le_of_skipOptionalExponent h

theorem length_lt_of_skipNumber (h : skipNumber cs = .ok rest) : rest.length < cs.length := by
  unfold skipNumber at h
  split at h
  · split at h
    · split at h
      · cases h
      · exact Nat.lt_succ_of_le (length_le_of_skipFraction h)
    · cases h
      exact Nat.lt_succ_self _
  · split at h
    · cases h
    next hdigits =>
      exact Nat.lt_of_le_of_lt (length_le_of_skipFraction h) (length_lt_of_skipDigits hdigits)

theorem readWord_eq_ok_iff {w : Json} {ws : List Char} :
    readWord v ws cs = .ok (w, rest) ↔ w = v ∧ cs = ws ++ rest := by
  induction ws generalizing cs with
  | nil => simp [readWord, eq_comm]
  | cons d ws ih =>
    cases cs with
    | nil => simp [readWord]
    | cons c cs =>
      by_cases hc : c = d
      · simp [readWord, hc, ih]
      · simp [readWord, hc]

theorem skipEscape_unit {n : Nat} (h : readUnit cs = .ok (n, rest)) : skipEscape ('u' :: cs) = .ok rest := by
  rw [skipEscape, h]
  rfl

/-- The second half of a pair of surrogates is an escape of its own for who passes over it. -/
theorem skipEscape_of_readEscape {d : Char} (h : readEscape cs = .ok (d, rest)) :
    skipEscape cs = .ok rest ∨
      ∃ mid, skipEscape cs = .ok ('\\' :: mid) ∧ skipEscape mid = .ok rest := by
  unfold readEscape at h
  split at h
  · cases h
  next cs =>
    split at h
    · cases h
    next n mid hunit =>
      split at h
      · cases h
        exact .inl (skipEscape_unit hunit)
      · split at h
        · cases h
        · unfold readLowSurrogate at h
          split at h
          · cases h
          · cases h
          next low =>
            split at h
            · cases h
            next hlow =>
              split at h
              · obtain rfl := (Prod.mk.inj (Except.ok.inj h)).2
                exact .inr ⟨_, skipEscape_unit hunit, skipEscape_unit hlow⟩
              · cases h
          · cases h
  case h_11 => cases h
  all_goals
    cases h
    exact .inl rfl

theorem length_lt_of_readUnit {n : Nat} (h : readUnit cs = .ok (n, rest)) : rest.length < cs.length := by
  unfold readUnit at h
  split at h
  · split at h <;> cases h
    simp only [List.length_cons]
    omega
  · split at h <;> cases h

theorem length_lt_of_skipEscape (h : skipEscape cs = .ok rest) : rest.length < cs.length := by
  unfold skipEscape at h
  split at h
  · cases h
  next cs =>
    cases hunit : readUnit cs with
    | error fault =>
      rw [hunit] at h
      cases h
    | ok r =>
      rw [hunit] at h
      cases h
      exact Nat.lt_succ_of_lt (length_lt_of_readUnit hunit)
  · split at h <;> cases h
    exact Nat.lt_succ_self _

theorem length_lt_of_skipStringWithin {fuel : Nat} (h : skipStringWithin fuel cs = .ok rest) :
    rest.length < cs.length := by
  fun_induction skipStringWithin fuel cs with
  | case1 => cases h
  | case2 => cases h
  | case3 =>
    cases h
    exact Nat.lt_succ_self _
  | case4 => cases h
  | case5 fuel cs mid hescape hquote ih =>
    have hmid := length_lt_of_skipEscape hescape
    have hrest := ih h
    simp only [List.length_cons]
    omega
  | case6 => cases h
  | case7 fuel c cs hquote hslash hlow ih =>
    exact Nat.lt_succ_of_lt (ih h)

theorem skipStringWithin_escape {fuel : Nat} (h : skipEscape cs = .ok rest) :
    skipStringWithin (fuel + 1) ('\\' :: cs) = skipStringWithin fuel rest := by
  rw [skipStringWithin, if_neg (by decide), if_pos rfl, h]

theorem skipStringWithin_of_readStringOnto {fuel steps : Nat} {out : List Char} {s : String}
    (h : readStringOnto fuel out cs = .ok (s, rest)) (hsteps : cs.length < steps) :
    skipStringWithin steps cs = .ok rest := by
  -- A pair of surrogates is one step of the reader, so the steps of the two are counted apart.
  induction fuel generalizing cs out steps with
  | zero => cases cs <;> cases h
  | succ fuel ih =>
    obtain ⟨steps, rfl⟩ := Nat.exists_eq_add_one_of_ne_zero (Nat.ne_of_gt (Nat.zero_lt_of_lt hsteps))
    cases cs with
    | nil => cases h
    | cons c cs =>
      have hlen : cs.length < steps := Nat.lt_of_succ_lt_succ hsteps
      rw [readStringOnto] at h
      split at h
      next hquote =>
        cases h
        rw [skipStringWithin, if_pos hquote]
      next hquote =>
        split at h
        next hslash =>
          split at h
          · cases h
          next d mid hescape =>
            rw [hslash]
            rcases skipEscape_of_readEscape hescape with hskip | ⟨low, hskip, hlow⟩
            · have hmid := length_lt_of_skipEscape hskip
              rw [skipStringWithin_escape hskip]
              exact ih h (Nat.lt_trans hmid hlen)
            · have hmid := length_lt_of_skipEscape hskip
              have hrest := length_lt_of_skipEscape hlow
              simp only [List.length_cons] at hmid
              obtain ⟨steps, rfl⟩ := Nat.exists_eq_add_one_of_ne_zero (show steps ≠ 0 by omega)
              rw [skipStringWithin_escape hskip, skipStringWithin_escape hlow]
              exact ih h (by omega)
        next hslash =>
          split at h
          · cases h
          next hlow =>
            rw [skipStringWithin, if_neg hquote, if_neg hslash, if_neg hlow]
            exact ih h hlen

theorem skipString_of_readString {s : String} (h : readString cs = .ok (s, rest)) :
    skipString cs = .ok rest := skipStringWithin_of_readStringOnto h (Nat.lt_succ_self _)

theorem length_lt_of_readString {s : String} (h : readString cs = .ok (s, rest)) :
    rest.length < cs.length := length_lt_of_skipStringWithin (skipString_of_readString h)

inductive StartsScalar : Char → Json → Prop
  | string (s : String) : StartsScalar '"' (.string s)
  | null : StartsScalar 'n' .null
  | yes : StartsScalar 't' (.bool true)
  | no : StartsScalar 'f' (.bool false)
  | number {c : Char} {v : Json} (hc : c = '-' ∨ isDigit c) (hv : v.IsNumber) : StartsScalar c v

structure ScalarRead (c : Char) (cs : List Char) (v : Json) (rest : List Char) : Prop where
  starts : StartsScalar c v
  skips : skipScalar c cs = .ok rest
  length_le : rest.length ≤ cs.length

theorem scalarRead_word {w : Json} {ws : List Char} (h : readWord v ws cs = .ok (w, rest))
    (hstarts : StartsScalar c v) (hskip : skipScalar c cs = (readWord .null ws cs).map Prod.snd) :
    ScalarRead c cs w rest := by
  obtain ⟨rfl, hcs⟩ := readWord_eq_ok_iff.1 h
  refine ⟨hstarts, ?_, ?_⟩
  · rw [hskip, readWord_eq_ok_iff.2 ⟨rfl, hcs⟩]
    rfl
  · rw [hcs, List.length_append]
    exact Nat.le_add_left _ _

theorem scalarRead (h : readScalar c cs = .ok (v, rest)) : ScalarRead c cs v rest := by
  revert h
  fun_cases readScalar c cs with
  | case1 hquote =>
    intro h
    subst hquote
    cases hs : readString cs with
    | error fault =>
      rw [hs] at h
      cases h
    | ok r =>
      rw [hs] at h
      cases h
      exact ⟨.string _, skipString_of_readString hs, Nat.le_of_lt (length_lt_of_readString hs)⟩
  | case2 hquote hnull =>
    intro h
    subst hnull
    exact scalarRead_word h .null rfl
  | case3 hquote hnull htrue =>
    intro h
    subst htrue
    exact scalarRead_word h .yes rfl
  | case4 hquote hnull htrue hfalse =>
    intro h
    subst hfalse
    exact scalarRead_word h .no rfl
  | case5 hquote hnull htrue hfalse hminus =>
    intro h
    obtain ⟨hv, hskip⟩ := passes_readNumber v rest h
    subst hminus
    exact ⟨.number (.inl rfl) hv, hskip, Nat.le_of_lt (length_lt_of_skipNumber hskip)⟩
  | case6 hquote hnull htrue hfalse hminus hdigit =>
    intro h
    obtain ⟨hv, hskip⟩ := passes_readNumber v rest h
    refine ⟨.number (.inr hdigit) hv, ?_, Nat.le_of_lt_succ (length_lt_of_skipNumber hskip)⟩
    rwa [skipScalar, if_neg hquote, if_neg hnull, if_neg htrue, if_neg hfalse, if_neg hminus, if_pos hdigit]
  | case7 => exact nofun

end Gatekeeper.Json
