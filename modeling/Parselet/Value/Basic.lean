import Parselet.Text.Basic
import Parselet.Binary64.Basic

/-!
The values that parsers produce. A grammar may mix them freely, so one type holds them all.
-/

namespace Parselet

/-- The operators of integer arithmetic, which are values while an expression is being read. -/
inductive Operator where
  | add
  | sub
  | mul
  | floordiv
  deriving DecidableEq, Repr

/-- What a parser produces. `absent` stands for an optional part that is not there. -/
inductive Value where
  | nothing
  | bool (b : Bool)
  | int (n : Int)
  | float (x : Binary64)
  | text (t : Text)
  | list (items : List Value)
  | tuple (items : List Value)
  | absent
  | operator (o : Operator)
  deriving Repr

/-- The kinds of values, as messages about an unsuitable one name them. -/
inductive Kind where
  | nothing
  | bool
  | int
  | float
  | text
  | list
  | tuple
  | absent
  | operator
  deriving DecidableEq, Repr

def Kind.label : Kind → Text
  | .nothing => "NoneType"
  | .bool => "bool"
  | .int => "int"
  | .float => "float"
  | .text => "str"
  | .list => "list"
  | .tuple => "tuple"
  | .absent => "Absent"
  | .operator => "builtin_function_or_method"

namespace Value

def kind : Value → Kind
  | nothing => .nothing
  | bool _ => .bool
  | int _ => .int
  | float _ => .float
  | text _ => .text
  | list _ => .list
  | tuple _ => .tuple
  | absent => .absent
  | operator _ => .operator

mutual

def decEq : (a b : Value) → Decidable (a = b)
  | nothing, b => by
    cases b
    case nothing => exact isTrue rfl
    all_goals exact isFalse nofun
  | absent, b => by
    cases b
    case absent => exact isTrue rfl
    all_goals exact isFalse nofun
  | bool x, b => by
    cases b
    case bool y => exact decidable_of_iff (x = y) (by simp)
    all_goals exact isFalse nofun
  | int x, b => by
    cases b
    case int y => exact decidable_of_iff (x = y) (by simp)
    all_goals exact isFalse nofun
  | float x, b => by
    cases b
    case float y => exact decidable_of_iff (x = y) (by simp)
    all_goals exact isFalse nofun
  | text x, b => by
    cases b
    case text y => exact decidable_of_iff (x = y) (by simp)
    all_goals exact isFalse nofun
  | operator x, b => by
    cases b
    case operator y => exact decidable_of_iff (x = y) (by simp)
    all_goals exact isFalse nofun
  | list xs, b => by
    cases b
    case list ys => exact have := decEqList xs ys; decidable_of_iff (xs = ys) (by simp)
    all_goals exact isFalse nofun
  | tuple xs, b => by
    cases b
    case tuple ys => exact have := decEqList xs ys; decidable_of_iff (xs = ys) (by simp)
    all_goals exact isFalse nofun

def decEqList : (as bs : List Value) → Decidable (as = bs)
  | [], [] => isTrue rfl
  | [], _ :: _ => isFalse nofun
  | _ :: _, [] => isFalse nofun
  | a :: as, b :: bs =>
    have := decEq a b
    have := decEqList as bs
    decidable_of_iff (a = b ∧ as = bs) (by simp)

end

instance : DecidableEq Value := decEq

end Value

end Parselet
