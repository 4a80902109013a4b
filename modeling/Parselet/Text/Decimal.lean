import Parselet.Text.Basic
import Parselet.Text.Digit

/-!
Integers in decimal: writing them with ASCII digits and reading runs of digits of any script.
-/

namespace Parselet.Text

def ofNat (n : Nat) : Text := (Nat.toDigits 10 n).map CodePoint.ofChar

def ofInt : Int → Text
  | .ofNat n => ofNat n
  | .negSucc n => CodePoint.ofChar '-' :: ofNat (n + 1)

/-- How many decimal digits `n` has, its sign not counted. -/
def digitCount (n : Int) : Nat := (Nat.toDigits 10 n.natAbs).length

/-- The number that the digits of `t` write after `acc`, characters of no value left out. -/
def positionalFrom (acc : Nat) (t : Text) : Nat :=
  t.foldl (fun n c => match c.digitValue? with | some d => 10 * n + d | none => n) acc

/-- The number that the digits of `t` write. -/
def positional (t : Text) : Nat := positionalFrom 0 t

/-- A leading sign, as whether it is a minus, and what follows it. -/
def splitSign : Text → Bool × Text
  | [] => (false, [])
  | c :: t =>
    if c = CodePoint.ofChar '-' then (true, t)
    else if c = CodePoint.ofChar '+' then (false, t)
    else (false, c :: t)

end Parselet.Text
