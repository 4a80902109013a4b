import Parselet.Text.Space
import Parselet.Text.Lower
import Parselet.Value.Written
import Parselet.Value.Equality

/-!
Functions on values that a grammar may apply to what its parsers produce. A value of an unsuitable
kind is a fault.
-/

namespace Parselet

/-- A function that a parser applies to a value, under the limit of the run. -/
abbrev Value.Function := Limit → Value → Except Fault Value

namespace Value

/-- Whether the value counts as true in a condition. -/
def truth : Value → Bool
  | nothing => false
  | bool b => b
  | int n => n ≠ 0
  | float x => !x.isZero
  | text t => !t.isEmpty
  | list items => !items.isEmpty
  | tuple items => !items.isEmpty
  | absent => false
  | operator _ => true

/-- The parts of a sequence; a text consists of its characters. -/
def items? : Value → Option (List Value)
  | list items => some items
  | tuple items => some items
  | text t => some (t.map fun c => text [c])
  | _ => none

/-- The texts one after another; `index` is the position of the first of them. -/
def concatFrom (index : Nat) : List Value → Except Fault Text
  | [] => .ok []
  | text t :: vs => do return t ++ (← concatFrom (index + 1) vs)
  | v :: _ => .error (.notText index v.kind)

/-- White space around an integer; the four separators below the space are none here. -/
def isMargin (c : CodePoint) : Bool := c.isSpace && !(0x1C ≤ c.val && c.val ≤ 0x1F)

def underscore : CodePoint := '_'

/-- Single underscores stand between digits only. -/
def wellGrouped : Text → Bool
  | [] => false
  | [c] => c.isDigit
  | c :: d :: rest => (c.isDigit || d.isDigit) && wellGrouped (d :: rest)

def isDigitOrUnderscore (c : CodePoint) : Bool := c.isDigit || c = underscore

/-- Reads digits of any script, in groups, with a sign and white space around them. Too many digits
are refused even if something unreadable follows them. -/
def readInt (limit : Limit) (t : Text) : Except Fault Int := do
  let bad := Fault.notAnInteger ((Text.quoted t).take 200)
  let (negative, r) := Text.splitSign (t.dropWhile isMargin)
  let run := r.takeWhile isDigitOrUnderscore
  let count := (run.filter CodePoint.isDigit).length
  if !(run.head?.any CodePoint.isDigit && wellGrouped run) then throw bad
  if let some bound := limit then
    if bound < count then throw (.tooLongToRead bound count)
  if !(r.dropWhile isDigitOrUnderscore).all isMargin then throw bad
  return Binary64.signed negative (Text.positional run)

/-- A float loses its fraction. -/
def toInt (limit : Limit) : Value → Except Fault Int
  | text t => readInt limit t
  | bool b => .ok (if b then 1 else 0)
  | int n => .ok n
  | float (.finite negative m e) => .ok (Binary64.truncate negative m e)
  | float (.infinite _) => .error .infiniteInteger
  | float .nan => .error .undefinedInteger
  | v => .error (.notConvertible v.kind)

def size : Value → Except Fault Nat
  | text t => .ok t.length
  | list items => .ok items.length
  | tuple items => .ok items.length
  | v => .error (.noLength v.kind)

def joined (v : Value) : Except Fault Text :=
  match v.items? with
  | some items => concatFrom 0 items
  | none => .error .notJoinable

/-- An absent part counts as an empty text. -/
def orEmpty : Value → Value
  | absent => text []
  | v => v

/-- The parts one after another, absent ones left out. -/
def joinedParts (v : Value) : Except Fault Text :=
  match v.items? with
  | some items => concatFrom 0 (items.map orEmpty)
  | none => .error (.notIterable v.kind)

def negated : Value → Except Fault Value
  | bool b => .ok (int (if b then -1 else 0))
  | int n => .ok (int (-n))
  | float x => .ok (float x.neg)
  | v => .error (.notNegatable v.kind)

def toFloat (n : Int) : Except Fault Binary64 :=
  match Binary64.ofInt? n with
  | some x => .ok x
  | none => .error .tooLargeForFloat

def plus (a b : Value) : Except Fault Value :=
  match a.number?, b.number? with
  | some (.int n), some (.int m) => .ok (int (n + m))
  | some (.int n), some (.float y) => do return float ((← toFloat n).add y)
  | some (.float x), some (.int m) => do return float (x.add (← toFloat m))
  | some (.float x), some (.float y) => .ok (float (x.add y))
  | _, _ => .error (.notAddable a.kind b.kind)

/-- The sum of the parts, starting from the integer zero. -/
def total (v : Value) : Except Fault Value :=
  match v.items? with
  | some items => items.foldlM plus (int 0)
  | none => .error (.notIterable v.kind)

def reversed : Value → Except Fault Value
  | text t => .ok (text t.reverse)
  | list items => .ok (list items.reverse)
  | tuple items => .ok (tuple items.reverse)
  | v => .error (.notIndexable v.kind)

/-- The part at an index, which counts from the end if it is negative. -/
def item (index : Int) (v : Value) : Except Fault Value :=
  match v.items? with
  | none => .error (.notIndexable v.kind)
  | some items =>
    let place := if index < 0 then index + items.length else index
    match (if place < 0 then none else items[place.toNat]?) with
    | some part => .ok part
    | none => .error (.outOfRange v.kind)

namespace Function

def identity : Value.Function := fun _ v => .ok v

def const (result : Value) : Value.Function := fun _ _ => .ok result

def toInt : Value.Function := fun limit v => do return int (← v.toInt limit)

def size : Value.Function := fun _ v => do return int (← v.size)

def joined : Value.Function := fun _ v => do return text (← v.joined)

def joinedParts : Value.Function := fun _ v => do return text (← v.joinedParts)

def written : Value.Function := fun limit v => do return text (← v.written? limit)

def truth : Value.Function := fun _ v => .ok (bool v.truth)

def negated : Value.Function := fun _ v => v.negated

def total : Value.Function := fun _ v => v.total

def reversed : Value.Function := fun _ v => v.reversed

def pair : Value.Function := fun _ v => .ok (tuple [v, v])

def singleton : Value.Function := fun _ v => .ok (list [v])

def isAbsent : Value.Function := fun _ v => .ok (bool (v.kind = .absent))

def orEmpty : Value.Function := fun _ v => .ok v.orEmpty

def item (index : Int) : Value.Function := fun _ v => v.item index

def fault (message : Text) : Value.Function := fun _ _ => .error (.user message)

end Function

end Value

end Parselet
