import Parselet.Binary64.Basic

/-!
The fewest decimal digits that determine a binary floating point number. The reals that round to
the number form an interval; among the decimals with 1, 2, … significant digits the first grid that
meets the interval decides, and of its points in the interval the one nearest to the number.
-/

namespace Parselet.Binary64

/-- The reals that round to a positive number: from `low / den` to `high / den` around
`mid / den`, the ends included if `closed`. -/
structure Interval where
  low : Nat
  mid : Nat
  high : Nat
  den : Nat
  closed : Bool

/-- Below a power of two the neighbours are twice as close as above it. -/
def Interval.around (m : Nat) (e : Int) : Interval :=
  let below := if m = Nat.pow 2 (precision - 1) && leastExponent < e then 1 else 2
  let den := (scale 1 1 (e - 2)).2
  let times (n : Nat) := (scale n 1 (e - 2)).1
  ⟨times (4 * m - below), times (4 * m), times (4 * m + 2), den, m % 2 = 0⟩

/-- A point `digits · 10 ^ exponent`. -/
structure Point where
  digits : Nat
  exponent : Int

/-- The two sides of a comparison of `p` with `n / den`, as whole numbers. -/
def Point.against (p : Point) (n den : Nat) : Nat × Nat :=
  if 0 ≤ p.exponent then (p.digits * Nat.pow 10 p.exponent.toNat * den, n)
  else (p.digits * den, n * Nat.pow 10 (-p.exponent).toNat)

def Interval.contains (i : Interval) (p : Point) : Bool :=
  let (a, low) := p.against i.low i.den
  let (b, high) := p.against i.high i.den
  if i.closed then low ≤ a && b ≤ high else low < a && b < high

/-- The distance of `p` from the middle, in units that are the same for all points of one grid. -/
def Interval.distance (i : Interval) (p : Point) : Nat :=
  let (a, mid) := p.against i.mid i.den
  if a ≤ mid then mid - a else a - mid

/-- The exponent of the greatest power of ten that is at most `num / den`. -/
def floorLog10 (num den : Nat) : Int :=
  let guess := floorLog2 num den * 30103 / 100000
  let atMost (e : Int) : Bool := let (a, b) := Point.against ⟨1, e⟩ num den; a ≤ b
  if !atMost guess then guess - 1 else if atMost (guess + 1) then guess + 1 else guess

/-- The point of the grid of spacing `10 ^ exponent` that lies in the interval and is nearest to its
middle; of two equally near the one with the even digit. -/
def Interval.nearest? (i : Interval) (exponent : Int) : Option Point :=
  let (a, b) := Point.against ⟨1, exponent⟩ i.mid i.den
  let lower : Point := ⟨b / a, exponent⟩
  let upper : Point := ⟨b / a + 1, exponent⟩
  match i.contains lower, i.contains upper with
  | false, false => none
  | true, false => some lower
  | false, true => some upper
  | true, true =>
    let d := i.distance lower
    let d' := i.distance upper
    if d < d' || (d = d' && lower.digits % 2 = 0) then some lower else some upper

/-- The first of the grids with `count`, `count + 1`, … digits that meets the interval. -/
def Interval.firstGrid (i : Interval) (lead : Int) : Nat → Nat → Point
  | 0, _ => ⟨0, 0⟩
  | fuel + 1, count =>
    match i.nearest? (lead - count + 1) with
    | some p => p
    | none => firstGrid i lead fuel (count + 1)

/-- The shortest decimal that rounds to `m · 2 ^ e`. -/
def shortest (m : Nat) (e : Int) : Point :=
  let i := Interval.around m e
  i.firstGrid (floorLog10 i.mid i.den) 17 1

end Parselet.Binary64
