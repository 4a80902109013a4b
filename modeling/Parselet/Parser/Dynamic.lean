import Parselet.Parser.Combinator
import Parselet.Parser.Step

/-!
Parsers made from values that are found while parsing. Such a value may be of any kind; what a
parser cannot be made from, or cannot look for, is a fault.
-/

namespace Parselet.Parser

/-- Fails with a message that shows the value. -/
def failWith (limit : Limit) (v : Value) : Except Fault Parser := do
  return fail ("got " ++ (← v.written? limit))

/-- Looks for a single value that is no text, and so is never found. -/
def neverFound (limit : Limit) (v : Value) (src : Text) : Except Fault Result := do
  let expected := Step.inQuotes (← v.written? limit)
  match src with
  | [] => return .failure (Step.endMessage expected) (some src)
  | c :: _ =>
    return .failure ("Expected " ++ expected ++ " but found " ++ Step.inQuotes [c]) (some src)

/-- A sequence of one part counts as a character, though only a text can match. -/
def characterOfValue (limit : Limit) (v : Value) : Except Fault Parser := do
  if (← v.size) ≠ 1 then throw .notOneCharacter
  match v with
  | .text t => character? t
  | _ => return custom (neverFound limit v) (← v.written? limit)

/-- Whether the input starts with one of the texts. A part that is no text is a fault once it is
reached. -/
def startsWithAny (src : Text) : List Value → Except Fault Bool
  | [] => .ok false
  | .text t :: rest => if t.isPrefixOf src then .ok true else startsWithAny src rest
  | v :: _ => .error (.notMatchablePart v.kind)

/-- Looks for any text of a tuple. As many characters are consumed as the tuple has parts. -/
def anyOf (limit : Limit) (parts : List Value) (src : Text) : Except Fault Result := do
  if ← startsWithAny src parts then
    return .success (.tuple parts) (src.drop parts.length)
  else
    let expected := Step.inDoubleQuotes (← (Value.tuple parts).written? limit)
    if src.length < parts.length then return .failure (Step.endMessage expected) (some src)
    else
      let found := src.take (min parts.length Text.excerptLimit)
      let dots : Text := if Text.excerptLimit < parts.length then "..." else []
      return .failure
        ("Expected " ++ expected ++ " but found " ++ Step.inDoubleQuotes (found ++ dots)) (some src)

def stringOfValue (limit : Limit) (v : Value) : Except Fault Parser := do
  match v with
  | .text t => return string t
  | .tuple parts => return custom (anyOf limit parts) (← v.written? limit)
  | _ => return custom (fun _ => .error (.notMatchable v.kind)) (← v.written? limit)

def anycaseOfValue (v : Value) : Except Fault Parser :=
  match v with
  | .text t => .ok (anycase t)
  | _ => .error (.noLowerCase v.kind)

/-- The text `s` as often as the value says. -/
def repeatedString (s : Text) (limit : Limit) (v : Value) : Except Fault Parser := do
  let n ← v.toInt limit
  return string (List.replicate n.toNat s).flatten

/-- Runs `p` as often in a row as the value says. -/
def replicated (p : Parser) (limit : Limit) (v : Value) : Except Fault Parser := do
  let n ← v.toInt limit
  atLeastTwo seq (List.replicate n.toNat p)

/-- The parser beside the key that the value is, else `other`. -/
def choose (keys : List Text) (branches : List Parser) (other : Parser) : Value → Parser
  | .text t => ((keys.zip branches).lookup t).getD other
  | _ => other

end Parselet.Parser
