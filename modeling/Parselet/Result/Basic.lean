import Parselet.Value.Written
import Parselet.Value.Equality

/-!
What a parser answers: a value with the input it left, or a message with the input where it failed.
-/

namespace Parselet

/-- A failure need not record where it arose. -/
inductive Result where
  | success (value : Value) (rest : Text)
  | failure (message : Text) (src : Option Text)
  deriving DecidableEq, Repr

namespace Result

def isSuccess : Result → Bool
  | success _ _ => true
  | failure _ _ => false

/-- A failure stays as it is. -/
def map (f : Value → Except Fault Value) : Result → Except Fault Result
  | success v rest => do return success (← f v) rest
  | failure m src => .ok (failure m src)

def optionalText : Option Text → Value
  | none => .nothing
  | some t => .text t

def written : Result → Text
  | success v rest => "Success(value=" ++ v.written ++ ", remaining=" ++ Text.quoted rest ++ ")"
  | failure m src =>
    "Failure(message=" ++ Text.quoted m ++ ", src=" ++ (optionalText src).written ++ ")"

/-- Only the value of a success can be too long to be written. -/
def written? (limit : Limit) : Result → Except Fault Text
  | success v rest => do
    let _ ← v.written? limit
    return (success v rest).written
  | failure m src => .ok (failure m src).written

def equal : Result → Result → Bool
  | success v rest, success w rest' => v.equal w && rest = rest'
  | failure m src, failure m' src' => m = m' && src = src'
  | _, _ => false

end Result

/-- A failure that is reported as an error. -/
structure ParseError where
  message : Text
  src : Option Text
  deriving DecidableEq, Repr

namespace ParseError

/-- Where the error arose, if that is known. -/
def notes (e : ParseError) : List Text :=
  match e.src with
  | none => []
  | some [] => ["At: end of input"]
  | some t => ["At: " ++ Text.quoted t.excerpt]

end ParseError

/-- The value of a success; a failure becomes an error. -/
def Result.toExcept : Result → Except ParseError Value
  | success v _ => .ok v
  | failure m src => .error ⟨m, src⟩

end Parselet
