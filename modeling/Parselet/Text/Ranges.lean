/-!
Sets of numbers as increasing lists of closed ranges, the form in which the character classes are
tabulated.
-/

namespace Parselet

/-- The ranges are nonempty, disjoint and in increasing order from `lo` on. -/
def Ranges.increasingFrom (lo : Nat) : List (Nat × Nat) → Bool
  | [] => true
  | (a, b) :: rs => lo ≤ a && a ≤ b && increasingFrom (b + 1) rs

/-- A table of closed ranges, disjoint and in increasing order. -/
structure Ranges where
  ranges : List (Nat × Nat)
  increasing : Ranges.increasingFrom 0 ranges = true := by decide +kernel

namespace Ranges

/-- How far `n` stands from the start of the range that holds it. -/
def offsetIn? : List (Nat × Nat) → Nat → Option Nat
  | [], _ => none
  | (lo, hi) :: rs, n => if n < lo then none else if n ≤ hi then some (n - lo) else offsetIn? rs n

def offset? (t : Ranges) (n : Nat) : Option Nat := offsetIn? t.ranges n

def contains (t : Ranges) (n : Nat) : Bool := (t.offset? n).isSome

end Ranges

end Parselet
