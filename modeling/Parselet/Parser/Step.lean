import Parselet.Text.Lower
import Parselet.Parser.Basic

/-!
What parsers do to the input, as functions from texts to runs. The combinators here take any such
functions, whether or not they stem from parsers.
-/

namespace Parselet

abbrev Step := Text → Run Result

namespace Step

def pure (v : Value) : Step := fun src => Pure.pure (.success v src)

def fail (message : Text) : Step := fun src => Pure.pure (.failure message (some src))

def raise (fault : Fault) : Step := fun _ => Run.raise fault

def endMessage (expected : Text) : Text := "Unexpected end of input, expected " ++ expected

/-- A text between single quotes, just as it is. -/
def inQuotes (t : Text) : Text := "'" ++ t ++ "'"

/-- A text between double quotes, just as it is. -/
def inDoubleQuotes (t : Text) : Text := "\"" ++ t ++ "\""

def eof : Step
  | [] => Pure.pure (.success .nothing [])
  | src => fail ("Expected end of input but found " ++ inDoubleQuotes src.excerpt) src

def satisfy (accepts : CodePoint → Bool) (description : Text) : Step
  | [] => fail (endMessage description) []
  | c :: rest =>
    if accepts c then Pure.pure (.success (.text [c]) rest)
    else fail ("Expected " ++ description ++ " but found " ++ inQuotes [c]) (c :: rest)

def character (c : CodePoint) : Step := satisfy (· = c) (inQuotes [c])

/-- The failure to find `s`, announced as `expected`. As much of the input is quoted as `s` is
long. -/
def literalFailure (s expected : Text) : Step := fun src =>
  if src.length < s.length then fail (endMessage expected) src
  else
    let found := src.take (min s.length Text.excerptLimit)
    let dots : Text := if Text.excerptLimit < s.length then "..." else []
    fail ("Expected " ++ expected ++ " but found " ++ inDoubleQuotes (found ++ dots)) src

def string (s : Text) : Step := fun src =>
  if s.isPrefixOf src then Pure.pure (.success (.text s) (src.drop s.length))
  else literalFailure s (inDoubleQuotes s) src

/-- Whether `src` starts with `s` when both are lowered. -/
def beginsLike (s src : Text) : Bool :=
  s.length ≤ src.length && Text.lower (src.take s.length) = s.lower

/-- The value is what the input holds. -/
def anycase (s : Text) : Step := fun src =>
  if beginsLike s src then Pure.pure (.success (.text (src.take s.length)) (src.drop s.length))
  else literalFailure s (inDoubleQuotes s ++ " (any case)") src

def regex (m : Matcher) : Step := fun src =>
  match m.match? src with
  | some (found, rest) => Pure.pure (.success (.text found) rest)
  | none =>
    let expected : Text := "/" ++ m.source ++ "/"
    if src.isEmpty then fail (endMessage expected) src
    else fail ("Expected " ++ expected ++ " but found " ++ inDoubleQuotes src.excerpt) src

def map (p : Step) (f : Value → Except Fault Value) : Step := fun src => do
  Run.ofExcept ((← p src).map f)

def flatMap (p : Step) (next : Value → Except Fault Step) : Step := fun src => do
  match ← p src with
  | .failure m s => return .failure m s
  | .success v rest => (← Run.ofExcept (next v)) rest

def orElse (p q : Step) : Step := fun src => do
  match ← p src with
  | .success v rest => return .success v rest
  | .failure _ _ => q src

/-- The values of the iterations that consume something, and what they leave. -/
def iterate (p : Step) (src : Text) : Run (List Value × Text) := do
  match ← p src with
  | .failure _ _ => return ([], src)
  | .success v rest =>
    if rest.length < src.length then
      let (vs, left) ← iterate p rest
      return (v :: vs, left)
    else return ([], src)
termination_by src.length

def many (p : Step) : Step := fun src => do
  let (vs, rest) ← iterate p src
  return .success (.list vs) rest

/-- Refuses the empty list. -/
def nonempty (p : Step) : Step := fun src => do
  match ← p src with
  | .success (.list []) _ => return .failure "Expected at least one match" (some src)
  | r => return r

def optional (p : Step) : Step := fun src => do
  match ← p src with
  | .success v rest => return .success v rest
  | .failure _ _ => return .success .absent src

/-- The contents that follow a separator, as long as something is consumed, and what is left. -/
def separated (content separator : Step) (src : Text) : Run (List Value × Text) := do
  match ← separator src with
  | .failure _ _ => return ([], src)
  | .success _ middle =>
    match ← content middle with
    | .failure _ _ => return ([], src)
    | .success v rest =>
      if rest.length < src.length then
        let (vs, left) ← separated content separator rest
        return (v :: vs, left)
      else return ([], src)
termination_by src.length

def sepBy (content separator : Step) : Step := fun src => do
  match ← content src with
  | .failure _ _ => return .success (.list []) src
  | .success v rest =>
    let (vs, left) ← separated content separator rest
    return .success (.list (v :: vs)) left

/-- The values of all steps in order, or the first failure. -/
def collect : List Step → Text → Run (Except (Text × Option Text) (List Value × Text))
  | [], src => return .ok ([], src)
  | p :: ps, src => do
    match ← p src with
    | .failure m s => return .error (m, s)
    | .success v rest =>
      match ← collect ps rest with
      | .error e => return .error e
      | .ok (vs, left) => return .ok (v :: vs, left)

def seq (ps : List Step) : Step := fun src => do
  match ← collect ps src with
  | .error (m, s) => return .failure m s
  | .ok (vs, rest) => return .success (.tuple vs) rest

/-- The first success, else the failure of the last step; `r` answers for no steps. -/
def firstOf (r : Result) : List Step → Step
  | [], _ => return r
  | p :: ps, src => do
    match ← p src with
    | .success v rest => return .success v rest
    | .failure m s => firstOf (.failure m s) ps src

def oneOf (ps : List Step) : Step := fun src => firstOf (.failure [] (some src)) ps src

def lookahead (p : Step) : Step := fun src => do
  match ← p src with
  | .failure m s => return .failure m s
  | .success v _ => return .success v src

def inverted (limit : Limit) (p : Step) : Step := fun src => do
  match ← p src with
  | .failure _ _ => return .success .nothing src
  | .success v _ => fail ("Unexpected " ++ (← Run.ofExcept (v.written? limit))) src

end Step

end Parselet
