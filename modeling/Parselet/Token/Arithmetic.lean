import Parselet.Token.Number
import Parselet.Token.Name

/-!
Integer arithmetic with the four operators and parentheses, evaluated while it is read.
-/

namespace Parselet

/-- Division goes to the floor, and by zero it has no value. -/
def Operator.apply : Operator → Int → Int → Option Int
  | .add, a, b => some (a + b)
  | .sub, a, b => some (a - b)
  | .mul, a, b => some (a * b)
  | .floordiv, a, b => if b = 0 then none else some (a.fdiv b)

namespace Parser

/-- Applies pairs of an operator and an operand to `n`, from the left, up to a division by zero. -/
def applyAll : Int → List Value → Except Fault (Option Int)
  | n, [] => .ok (some n)
  | n, .tuple [.operator o, .int m] :: rest =>
    match o.apply n m with
    | some k => applyAll k rest
    | none => .ok none
  | _, v :: _ => .error (.notIterable v.kind)

/-- The value of a first operand and the pairs that follow it. -/
def evaluate (limit : Limit) : Value → Except Fault Parser
  | .tuple [.int n, .list rest] => do
    match ← applyAll n rest with
    | some m => pure limit (.int m)
    | none => return fail "Division by zero"
  | v => .error (.notIterable v.kind)

/-- Operands with operators between them. -/
def chain (operand operators : Parser) : Parser :=
  (seq [operand, many (seq [operators, operand])]).flatMap evaluate

/-- The symbol of an operator, with the operator as value. -/
def operatorSymbol (s : Text) (o : Operator) : Parser :=
  (symbol s).map fun _ _ => .ok (.operator o)

def factor (expr : Parser) : Parser :=
  (lexeme integer).orElse (between (symbol "(") expr (symbol ")"))

def term (expr : Parser) : Parser :=
  chain (factor expr) (oneOf [operatorSymbol "*" .mul, operatorSymbol "/" .floordiv])

def sum (expr : Parser) : Parser :=
  chain (term expr) (oneOf [operatorSymbol "+" .add, operatorSymbol "-" .sub])

/-- An expression, with white space allowed before every token and at the end. -/
def arithmetic : Build Parser := do
  let (f, store) := (← get).allocate "expr"
  let expr := forward f
  set (← store.define f (sum expr))
  return (skipWhitespace.andThen expr).named "arithmetic"

end Parser

end Parselet
