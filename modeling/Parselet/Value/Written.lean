import Parselet.Text.Quoted
import Parselet.Binary64.Written
import Parselet.Limit
import Parselet.Fault

/-!
Values as messages, names and logs show them. Writing is total; that an integer is too long to be
written under a limit is found out beforehand.
-/

namespace Parselet

def Operator.written : Operator → Text
  | .add => "<built-in function add>"
  | .sub => "<built-in function sub>"
  | .mul => "<built-in function mul>"
  | .floordiv => "<built-in function floordiv>"

namespace Value

mutual

def written : Value → Text
  | nothing => "None"
  | bool true => "True"
  | bool false => "False"
  | int n => Text.ofInt n
  | float x => x.written
  | text t => Text.quoted t
  | list items => "[" ++ Text.join ", " (writtenAll items) ++ "]"
  | tuple [item] => "(" ++ written item ++ ",)"
  | tuple items => "(" ++ Text.join ", " (writtenAll items) ++ ")"
  | absent => "ABSENT"
  | operator o => o.written

def writtenAll : List Value → List Text
  | [] => []
  | v :: vs => written v :: writtenAll vs

end

mutual

/-- Every integer in the value may be written under the limit. -/
def fits (limit : Limit) : Value → Bool
  | int n => limit.allows (Text.digitCount n)
  | list items => allFit limit items
  | tuple items => allFit limit items
  | _ => true

def allFit (limit : Limit) : List Value → Bool
  | [] => true
  | v :: vs => fits limit v && allFit limit vs

end

/-- The written value, unless it holds an integer that the limit forbids to write. -/
def written? (limit : Limit) (v : Value) : Except Fault Text :=
  match limit with
  | none => .ok v.written
  | some bound => if v.fits limit then .ok v.written else .error (.tooLongToWrite bound)

end Value

end Parselet
