/-!
Binary floating point with 53 significant bits, as exact data. Every operation computes the exact
rational result and rounds it once, to the nearest number and on a tie to the even mantissa.
-/

namespace Parselet

/-- A finite number is `mantissa · 2 ^ exponent` with its sign; a zero has a sign too. -/
inductive Binary64 where
  | finite (negative : Bool) (mantissa : Nat) (exponent : Int)
  | infinite (negative : Bool)
  | nan
  deriving DecidableEq, Repr

/-- The nearest integer to `num / den`, the even one of two that are equally near. -/
def roundDiv (num den : Nat) : Nat :=
  let q := num / den
  let twice := 2 * (num % den)
  if twice < den then q
  else if den < twice then q + 1
  else q + q % 2

namespace Binary64

def precision : Nat := 53

def leastExponent : Int := -1074

def greatestExponent : Int := 971

def zero (negative : Bool) : Binary64 := .finite negative 0 leastExponent

/-- The numerator and denominator of `num / den · 2 ^ e`. -/
def scale (num den : Nat) (e : Int) : Nat × Nat :=
  if 0 ≤ e then (num * Nat.pow 2 e.toNat, den) else (num, den * Nat.pow 2 (-e).toNat)

/-- The exponent of the greatest power of two that is at most `num / den`. -/
def floorLog2 (num den : Nat) : Int :=
  let guess : Int := (Nat.log2 num : Int) - Nat.log2 den
  let (n, d) := scale num den (-guess)
  if d ≤ n then guess else guess - 1

/-- The number nearest to `num / den`, with the given sign. -/
def ofRatio (negative : Bool) (num den : Nat) : Binary64 :=
  if num = 0 then zero negative
  else
    let e := max (floorLog2 num den - (precision - 1)) leastExponent
    let (n, d) := scale num den (-e)
    let m := roundDiv n d
    let (m, e) := if m = Nat.pow 2 precision then (Nat.pow 2 (precision - 1), e + 1) else (m, e)
    if greatestExponent < e then .infinite negative else .finite negative m e

def isNegative : Binary64 → Bool
  | .finite negative _ _ => negative
  | .infinite negative => negative
  | .nan => false

def isZero : Binary64 → Bool
  | .finite _ 0 _ => true
  | _ => false

def neg : Binary64 → Binary64
  | .finite negative m e => .finite (!negative) m e
  | .infinite negative => .infinite (!negative)
  | .nan => .nan

/-- The integer `m` with the given sign. -/
def signed (negative : Bool) (m : Nat) : Int := if negative then -(m : Int) else m

/-- The sum of two opposite numbers is the positive zero, unless both are negative zeros. -/
def add : Binary64 → Binary64 → Binary64
  | .nan, _ => .nan
  | _, .nan => .nan
  | .infinite a, .infinite b => if a = b then .infinite a else .nan
  | .infinite a, _ => .infinite a
  | _, .infinite b => .infinite b
  | .finite a m e, .finite b n f =>
    let low := min e f
    let sum := signed a (m * Nat.pow 2 (e - low).toNat) + signed b (n * Nat.pow 2 (f - low).toNat)
    if sum = 0 then zero (a && b)
    else
      let (num, den) := scale sum.natAbs 1 low
      ofRatio (decide (sum < 0)) num den

/-- The nearest number to `n`, if it is in range. -/
def ofInt? (n : Int) : Option Binary64 :=
  match ofRatio (decide (n < 0)) n.natAbs 1 with
  | .finite negative m e => some (.finite negative m e)
  | _ => none

/-- A finite number without its fraction. -/
def truncate (negative : Bool) (m : Nat) (e : Int) : Int :=
  signed negative (if 0 ≤ e then m * Nat.pow 2 e.toNat else m / Nat.pow 2 (-e).toNat)

/-- Whether the number is exactly the integer `n`. -/
def eqInt (n : Int) : Binary64 → Bool
  | .finite negative m e =>
    if 0 ≤ e then signed negative (m * Nat.pow 2 e.toNat) = n
    else signed negative m = n * Int.ofNat (Nat.pow 2 (-e).toNat)
  | _ => false

/-- Equality of numbers: the two zeros are equal, and nothing equals a number that is none. -/
def eqNumber : Binary64 → Binary64 → Bool
  | .nan, _ => false
  | a, b => (a.isZero && b.isZero) || a = b

end Binary64

end Parselet
