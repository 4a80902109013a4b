import Parselet.Text.Decimal
import Parselet.Binary64.Shortest

/-!
Binary floating point numbers as text: the shortest digits, positional for magnitudes near one and
with a power of ten otherwise.
-/

namespace Parselet.Binary64

/-- How a number is laid out. Exponents of the leading digit from `positionalFrom` up to, and
without, `positionalTo` are written positionally. -/
structure Layout where
  positionalFrom : Int
  positionalTo : Int
  exponentDigits : Nat

/-- From 0.0001 up to 10^16 positionally, and an exponent has a sign and at least two digits. -/
def layout : Layout := ⟨-4, 16, 2⟩

def zeros (n : Nat) : Text := List.replicate n (CodePoint.ofChar '0')

/-- The digits without the zeros at their end. -/
def significant (digits : Text) : Text :=
  (digits.reverse.dropWhile (· = CodePoint.ofChar '0')).reverse

/-- Digits whose first one has the exponent `lead`, with at least one digit on each side of the
point. -/
def positional (digits : Text) (lead : Int) : Text :=
  if lead < 0 then "0." ++ zeros ((-lead).toNat - 1) ++ digits
  else
    let whole := lead.toNat + 1
    if digits.length ≤ whole then digits ++ zeros (whole - digits.length) ++ ".0"
    else digits.take whole ++ "." ++ digits.drop whole

/-- Digits with a point after the first one, if more follow, and a power of ten. -/
def scientific (l : Layout) (digits : Text) (lead : Int) : Text :=
  let fraction : Text := if digits.length ≤ 1 then [] else "." ++ digits.drop 1
  let size := Text.ofNat lead.natAbs
  digits.take 1 ++ fraction ++ (if lead < 0 then "e-" else "e+") ++
    zeros (l.exponentDigits - size.length) ++ size

/-- A positive finite number. -/
def writtenMagnitude (l : Layout) (m : Nat) (e : Int) : Text :=
  if m = 0 then "0.0"
  else
    let p := shortest m e
    let digits := Text.ofNat p.digits
    let lead := p.exponent + digits.length - 1
    let digits := significant digits
    if l.positionalFrom ≤ lead && lead < l.positionalTo then positional digits lead
    else scientific l digits lead

def written : Binary64 → Text
  | .finite negative m e => (if negative then "-" else "") ++ writtenMagnitude layout m e
  | .infinite negative => if negative then "-inf" else "inf"
  | .nan => "nan"

end Parselet.Binary64
