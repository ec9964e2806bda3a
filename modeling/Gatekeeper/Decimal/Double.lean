namespace Gatekeeper

/-- The number `± significand * 2 ^ exponent`. -/
structure Double where
  negative : Bool
  significand : Nat
  exponent : Int
deriving DecidableEq, Repr, Inhabited

namespace Double

def leastExponent : Int := -1074

def greatestExponent : Int := 971

def leastNormal : Nat := 4503599627370496

def zero : Double := ⟨false, 0, leastExponent⟩

def isZero (x : Double) : Bool := x.significand == 0

def negate (x : Double) : Double := { x with negative := !x.negative }

/-- The integer nearest to a quotient, a half going to the even neighbour. -/
def nearest (num den : Nat) : Nat :=
  let q := num / den
  let r := 2 * (num % den)
  if r < den then q else if den < r then q + 1 else q + q % 2

def scaled (num den : Nat) (e : Int) : Nat × Nat :=
  if 0 ≤ e then (num, den <<< e.toNat) else (num <<< (-e).toNat, den)

/-- The exponent that gives `num / den` a significand of 53 bits. -/
def normalExponent (num den : Nat) : Int :=
  let top : Int := (num.log2 : Int) - den.log2
  let (n, d) := scaled num den top
  if d ≤ n then top - 52 else top - 53

def round (negative : Bool) (num den : Nat) : Option Double :=
  if num = 0 then some { zero with negative }
  else
    let e := max (normalExponent num den) leastExponent
    let (n, d) := scaled num den e
    let m := nearest n d
    let (m, e) := if m = 2 * leastNormal then (leastNormal, e + 1) else (m, e)
    if e ≤ greatestExponent then some ⟨negative, m, e⟩ else none

def ratio (x : Double) : Nat × Nat :=
  if 0 ≤ x.exponent then (x.significand <<< x.exponent.toNat, 1)
  else (x.significand, 1 <<< (-x.exponent).toNat)

def ofNat (n : Nat) : Option Double := round false n 1

def mul (x y : Double) : Option Double :=
  round (x.negative != y.negative) (x.ratio.1 * y.ratio.1) (x.ratio.2 * y.ratio.2)

def div (x y : Double) : Option Double :=
  round (x.negative != y.negative) (x.ratio.1 * y.ratio.2) (x.ratio.2 * y.ratio.1)

/-- The double nearest to `digits * 10 ^ e`. Exponents too large or too small for any double are
recognised by the number of digits. -/
def ofDecimal (negative : Bool) (digits : Nat) (e : Int) : Option Double :=
  let size : Int := (digits.log2 : Int) * 30103 / 100000 + e
  if digits = 0 then some { zero with negative }
  else if 320 < size then none
  else if size < -340 then some { zero with negative }
  else if 0 ≤ e then round negative (digits * Nat.pow 10 e.toNat) 1
  else round negative digits (Nat.pow 10 (-e).toNat)

end Double

end Gatekeeper
