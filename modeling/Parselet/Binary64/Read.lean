import Parselet.Text.Decimal
import Parselet.Binary64.Basic

/-!
Reading a decimal text as the nearest binary floating point number.
-/

namespace Parselet.Binary64

/-- The number nearest to `m · 10 ^ e`. Magnitudes far outside the range are settled by the number
of digits alone, so that no huge power is computed. -/
def ofDecimal (negative : Bool) (m : Nat) (e : Int) : Binary64 :=
  let digits : Int := (Nat.toDigits 10 m).length
  if m = 0 then zero negative
  else if 400 < e + digits then .infinite negative
  else if e + digits < -400 then zero negative
  else if 0 ≤ e then ofRatio negative (m * Nat.pow 10 e.toNat) 1
  else ofRatio negative m (Nat.pow 10 (-e).toNat)

/-- The digits at the start of `t` and what follows them. -/
def takeDigits (t : Text) : Text × Text := t.span CodePoint.isDigit

/-- The power of ten written at the start of `t`, 0 if there is none. -/
def readExponent : Text → Int
  | [] => 0
  | c :: t =>
    if c = CodePoint.ofChar 'e' || c = CodePoint.ofChar 'E' then
      let (negative, t) := Text.splitSign t
      signed negative (Text.positional (takeDigits t).1)
    else 0

/-- The value of a text of the form `[sign] digits [. digits] [e [sign] digits]`, where the digits
before the point may be missing if some follow it. -/
def ofText (t : Text) : Binary64 :=
  let (negative, t) := Text.splitSign t
  let (whole, t) := takeDigits t
  let (fraction, t) := match t with
    | [] => ([], [])
    | c :: r => if c = CodePoint.ofChar '.' then takeDigits r else ([], c :: r)
  ofDecimal negative (Text.positional (whole ++ fraction)) (readExponent t - fraction.length)

/-- Reads what `written` writes. -/
def read (t : Text) : Binary64 :=
  let (negative, r) := Text.splitSign t
  if r = "inf" then .infinite negative
  else if r = "nan" then .nan
  else ofText t

end Parselet.Binary64
