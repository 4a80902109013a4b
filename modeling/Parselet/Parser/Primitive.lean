import Parselet.Text.Space
import Parselet.Text.Letter
import Parselet.Parser.Basic

/-!
Parsers that look at the input themselves.
-/

namespace Parselet.Parser

/-- Succeeds with `v` and consumes nothing. Its name shows `v`, which has to be written for it. -/
def pure (limit : Limit) (v : Value) : Except Fault Parser := do
  return mk ("pure(" ++ (← v.written? limit) ++ ")") (.pure v)

def fail (message : Text) : Parser := mk "fail" (.fail message)

/-- The end of the input. -/
def eof : Parser := mk "eof" .eof

def character (c : CodePoint) : Parser := mk (Text.quoted [c]) (.character c)

/-- The character that `s` consists of. -/
def character? (s : Text) : Except Fault Parser :=
  match s with
  | [c] => .ok (character c)
  | _ => .error .notOneCharacter

/-- A character that `accepts` holds for, described in messages as `description`. -/
def satisfy (accepts : CodePoint → Bool) (description : Text) : Parser :=
  mk description (.satisfy accepts description)

def digit : Parser := satisfy CodePoint.isDigit "a digit"

def letter : Parser := satisfy CodePoint.isLetter "a letter"

def alphanumeric : Parser :=
  satisfy (fun c => c.isLetter || c.isDigit) "an alphanumeric character"

def whitespace : Parser := satisfy CodePoint.isSpace "whitespace"

/-- The text `s` itself. -/
def string (s : Text) : Parser := mk (Text.quoted s) (.string s)

/-- The text `s` in any mixture of upper and lower case. -/
def anycase (s : Text) : Parser := mk ("anycase(" ++ Text.quoted s ++ ")") (.anycase s)

/-- What the regular expression matches at the start of the input. -/
def regex (m : Matcher) : Parser := mk ("/" ++ m.source ++ "/") (.regex m)

/-- A parser given by a function. -/
def custom (f : Text → Except Fault Result) (name : Text) : Parser := mk name (.custom f)

/-- The parser that the forward stands for when it is run. -/
def forward (f : Forward) : Parser := mk f.name (.forward f)

end Parselet.Parser
