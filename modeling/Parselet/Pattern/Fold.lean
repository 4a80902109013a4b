import Parselet.Text.Lower
import Parselet.Pattern.Basic

/-!
Comparing characters without regard to case. Two characters are alike if they have the same lower
case or lower cases of one group of variants, such as the two small sigmas.
-/

namespace Parselet.Pattern

/-- Lower case characters that share an upper case. -/
def caseVariants : List (List Nat) := [
  [0x69, 0x131], [0x73, 0x17f], [0xb5, 0x3bc], [0x345, 0x3b9, 0x1fbe], [0x390, 0x1fd3],
  [0x3b0, 0x1fe3], [0x3b2, 0x3d0], [0x3b5, 0x3f5], [0x3b8, 0x3d1], [0x3ba, 0x3f0], [0x3c0, 0x3d6],
  [0x3c1, 0x3f1], [0x3c2, 0x3c3], [0x3c6, 0x3d5], [0x432, 0x1c80], [0x434, 0x1c81],
  [0x43e, 0x1c82], [0x441, 0x1c83], [0x442, 0x1c84, 0x1c85], [0x44a, 0x1c86], [0x463, 0x1c87],
  [0x1c88, 0xa64b], [0x1e61, 0x1e9b], [0xfb05, 0xfb06]]

/-- The lower case by which `c` is compared; in ASCII only the 26 capitals change. -/
def Flags.fold (flags : Flags) (c : CodePoint) : CodePoint :=
  if flags.ascii then
    if 0x41 ≤ c.val && c.val ≤ 0x5A then .ofNat (c.val + 32) else c
  else c.lower

/-- The folded characters that a folded character is alike to. -/
def Flags.alike (flags : Flags) (c : CodePoint) : List CodePoint :=
  if flags.ascii then [c]
  else
    match caseVariants.find? (·.contains c.val) with
    | some variants => variants.map CodePoint.ofNat
    | none => [c]

/-- The characters, other than itself, whose lower case is `c`. -/
def capitalsOf (c : CodePoint) : List CodePoint :=
  lowerRuns.filterMap fun r =>
    let n : Int := c.val - r.shift
    let capital := CodePoint.ofNat n.toNat
    if r.first ≤ n && n ≤ r.last && capital.lower = c then some capital else none

/-- The characters that fold to the folded character `c`. -/
def Flags.unfold (flags : Flags) (c : CodePoint) : List CodePoint :=
  if flags.ascii then
    if 0x61 ≤ c.val && c.val ≤ 0x7A then [c, .ofNat (c.val - 32)] else [c]
  else c :: capitalsOf c

end Parselet.Pattern
