import Gatekeeper.Decimal.Double

namespace Gatekeeper.Decimal

/-- The number `0.d₁d₂… * 10 ^ point`. -/
structure Digits where
  digits : List Char
  point : Int

def pointOf (num den : Nat) : Int :=
  let below (p : Int) : Bool :=
    if 0 ≤ p then num < den * Nat.pow 10 p.toNat else num * Nat.pow 10 (-p).toNat < den
  let guess : Int := ((num.log2 : Int) - den.log2) * 30103 / 100000
  if below (guess - 1) then guess - 1
  else if below guess then guess
  else if below (guess + 1) then guess + 1
  else guess + 2

/-- The neighbour of `4 * m * u` on the grid `10 ^ g` that lies in the rounding interval of `m`,
where `u` is a quarter of the unit `2 ^ e`. -/
def onGrid (m : Nat) (e g : Int) : Option Nat :=
  let up := Nat.pow 2 (e - 2).toNat * Nat.pow 10 (-g).toNat
  let unit := Nat.pow 2 (2 - e).toNat * Nat.pow 10 g.toNat
  let below := if m = Double.leastNormal ∧ Double.leastExponent < e then 1 else 2
  let value := 4 * m * up
  let low := (4 * m - below) * up
  let high := (4 * m + 2) * up
  let d := value / unit
  let closed := m % 2 = 0
  let under := low < d * unit ∨ (closed ∧ low = d * unit)
  let above := (d + 1) * unit < high ∨ (closed ∧ (d + 1) * unit = high)
  let gap := 2 * (value % unit)
  if under ∧ above then
    some (if gap < unit then d else if unit < gap then d + 1 else d + d % 2)
  else if under then some d
  else if above then some (d + 1)
  else none

def dropTrailingZeros (ds : List Char) : List Char :=
  (ds.reverse.dropWhile (· == '0')).reverse

/-- The shortest digits of a number other than zero. On the grids of one, two, … seventeen digits
the two neighbours of the number are tried: the first grid with a neighbour that rounds back to the
number wins, of two such neighbours the nearer one, of two equally near the even one. -/
def shortest (x : Double) : Digits :=
  let p := pointOf x.ratio.1 x.ratio.2
  let hit := (List.range 17).findSome? fun k ↦
    let g := p - (k + 1 : Nat)
    (onGrid x.significand x.exponent g).map fun d ↦ (d, g)
  let (d, g) := hit.getD (0, 0)
  let ds := Nat.toDigits 10 d
  ⟨dropTrailingZeros ds, ds.length + g⟩

end Gatekeeper.Decimal
