import Parselet.Text.Decimal

/-!
The bound on the number of digits that an integer may have where it is written or read as text, and
what is said of an integer that has more.
-/

namespace Parselet

/-- The most digits an integer's text may have; `none` sets no bound. -/
abbrev Limit := Option Nat

namespace Limit

def standard : Limit := some 4300

def allows (limit : Limit) (digits : Nat) : Bool :=
  match limit with
  | none => true
  | some bound => digits ≤ bound

def advice : Text := "; use sys.set_int_max_str_digits() to increase the limit"

def exceeded (bound : Nat) : Text :=
  "Exceeds the limit (" ++ Text.ofNat bound ++ " digits) for integer string conversion"

def tooLongToWrite (bound : Nat) : Text := exceeded bound ++ advice

def tooLongToRead (bound digits : Nat) : Text :=
  exceeded bound ++ ": value has " ++ Text.ofNat digits ++ " digits" ++ advice

end Limit

end Parselet
