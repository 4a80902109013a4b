import Parselet.Text.Basic

/-!
Letters and digits of ASCII, which notations are written with, whatever scripts the input uses.
-/

namespace Parselet

namespace Text

def decimalDigits : Text := "0123456789"

def octalDigits : Text := "01234567"

def hexDigits : Text := decimalDigits ++ "ABCDEFabcdef"

end Text

namespace CodePoint

def isAsciiLetter (c : CodePoint) : Bool :=
  (0x41 ≤ c.val && c.val ≤ 0x5A) || (0x61 ≤ c.val && c.val ≤ 0x7A)

/-- The value of a digit, where letters of either case continue after the nine. -/
def asciiDigitValue (c : CodePoint) : Nat :=
  if c.val < 0x3A then c.val - 0x30 else if c.val < 0x47 then c.val - 0x37 else c.val - 0x57

end CodePoint

/-- The number that ASCII digits write in a base of at most sixteen. -/
def Text.numberIn (base : Nat) (digits : Text) : Nat :=
  digits.foldl (fun n c => base * n + c.asciiDigitValue) 0

end Parselet
