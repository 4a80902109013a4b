import Parselet.Value.Basic

/-!
When two values count as equal: numbers of all kinds by their exact value, sequences of one kind
part by part.
-/

namespace Parselet

/-- A number of either kind; truth values count as 0 and 1. -/
inductive Number where
  | int (n : Int)
  | float (x : Binary64)

def Number.equal : Number → Number → Bool
  | .int n, .int m => n = m
  | .int n, .float x => x.eqInt n
  | .float x, .int n => x.eqInt n
  | .float x, .float y => x.eqNumber y

namespace Value

def number? : Value → Option Number
  | bool b => some (.int (if b then 1 else 0))
  | int n => some (.int n)
  | float x => some (.float x)
  | _ => none

mutual

def equal : Value → Value → Bool
  | nothing, nothing => true
  | absent, absent => true
  | text t, text u => t = u
  | operator o, operator p => o = p
  | list as, list bs => equalAll as bs
  | tuple as, tuple bs => equalAll as bs
  | a, b =>
    match a.number?, b.number? with
    | some x, some y => x.equal y
    | _, _ => false

def equalAll : List Value → List Value → Bool
  | [], [] => true
  | a :: as, b :: bs => equal a b && equalAll as bs
  | _, _ => false

end

end Value

end Parselet
