import Parselet.Binary64.Read
import Parselet.Parser.Combinator

/-!
Numbers: integers with and without a sign, and decimal numbers.
-/

namespace Parselet.Parser

/-- The integer that a list of digits writes, unless it has more digits than the limit allows. -/
def integerOf (limit : Limit) (digits : Value) : Except Fault Parser := do
  let count ← digits.size
  if limit.allows count then
    let n ← Value.readInt limit (← digits.joined)
    pure limit (.int n)
  else return fail ("Integer literal too long (" ++ Text.ofNat count ++ " digits)")

/-- One or more digits. -/
def integer : Parser := ((many1 digit).flatMap integerOf).named "integer"

def signCharacters : Text := "+-"

def sign : Parser := satisfy (fun c => signCharacters.contains c) "a sign"

/-- The number of a pair of an optional sign and a number. -/
def applySign (parts : Value) : Except Fault Value := do
  if (← parts.item 0) = .text "-" then (← parts.item 1).negated else parts.item 1

/-- An integer with an optional sign. -/
def signedInteger : Parser :=
  ((seq [optional sign, integer]).map fun _ v => applySign v).named "signed_integer"

def digits : Parser := (many1 digit).map Value.Function.joined

/-- A point and the digits after it. -/
def fraction : Parser := (seq [character '.', digits]).map Value.Function.joinedParts

/-- Digits with an optional fraction, or a fraction alone. -/
def mantissa : Parser :=
  ((seq [digits, optional fraction]).map Value.Function.joinedParts).orElse fraction

def exponent : Parser :=
  (seq [anycase "e", optional sign, digits]).map Value.Function.joinedParts

def floatOf (parts : Value) : Except Fault Value := do
  return .float (Binary64.ofText (← parts.joinedParts))

/-- A mantissa with an optional sign and an optional exponent. -/
def decimalNumber : Parser :=
  ((seq [optional sign, mantissa, optional exponent]).map fun _ v => floatOf v).named
    "decimal_number"

end Parselet.Parser
