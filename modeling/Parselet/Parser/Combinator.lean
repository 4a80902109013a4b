import Parselet.Value.Function
import Parselet.Parser.Primitive

/-!
Parsers made from other parsers. A combined parser is named after its parts.
-/

namespace Parselet.Parser

/-- A word with parenthesised arguments. -/
def callName (word : Text) (arguments : List Text) : Text :=
  word ++ "(" ++ Text.join ", " arguments ++ ")"

/-- Two names with an operator between them. -/
def operationName (left operator right : Text) : Text :=
  "(" ++ left ++ " " ++ operator ++ " " ++ right ++ ")"

def map (p : Parser) (f : Value.Function) : Parser := mk (callName "map" [p.name]) (.map p f)

/-- Runs `p` and then the parser that `next` makes of its value. -/
def flatMap (p : Parser) (next : Limit → Value → Except Fault Parser) : Parser :=
  mk (callName "flat_map" [p.name]) (.flatMap p next)

/-- Runs `p`, then `q`, and keeps the value of `p`. -/
def followedBy (p q : Parser) : Parser :=
  (p.flatMap fun _ v => .ok (q.map fun _ _ => .ok v)).named (operationName p.name "<<" q.name)

/-- Runs `p`, then `q`, and keeps the value of `q`. -/
def andThen (p q : Parser) : Parser :=
  (p.flatMap fun _ _ => .ok q).named (operationName p.name ">>" q.name)

/-- Runs `q` only where `p` fails. -/
def orElse (p q : Parser) : Parser := mk (operationName p.name "|" q.name) (.orElse p q)

/-- Repeats `p` as long as it succeeds and consumes something. -/
def many (p : Parser) : Parser := mk (callName "many" [p.name]) (.many p)

/-- Repeats `p`, at least once. -/
def many1 (p : Parser) : Parser := mk (callName "many1" [p.name]) (.nonempty (many p))

/-- Gives an absent value where `p` fails. -/
def optional (p : Parser) : Parser := mk (callName "optional" [p.name]) (.optional p)

/-- Keeps the value of `content`, which stands between two delimiters. -/
def between (opening content closing : Parser) : Parser :=
  ((opening.andThen content).followedBy closing).named
    (callName "between" [opening.name, content.name, closing.name])

/-- Any number of contents with separators between them. -/
def sepBy (content separator : Parser) : Parser :=
  mk (callName "sep_by" [content.name, separator.name]) (.sepBy content separator)

/-- At least one content, with separators in between. -/
def sepBy1 (content separator : Parser) : Parser :=
  mk (callName "sep_by1" [content.name, separator.name]) (.nonempty (sepBy content separator))

/-- All parsers one after another. -/
def seq (ps : List Parser) : Parser := mk (callName "seq" (ps.map name)) (.seq ps)

/-- The first parser that succeeds. -/
def oneOf (ps : List Parser) : Parser := mk (callName "oneof" (ps.map name)) (.oneOf ps)

/-- Combinators of lists want at least two parsers. -/
def atLeastTwo (combine : List Parser → Parser) (ps : List Parser) : Except Fault Parser :=
  if ps.length < 2 then .error .tooFewParsers else .ok (combine ps)

/-- Matches `p` but consumes nothing. -/
def lookahead (p : Parser) : Parser := mk (callName "lookahead" [p.name]) (.lookahead p)

/-- Succeeds, without consuming anything, where `p` fails. -/
def inverted (p : Parser) : Parser := mk (callName "inverted" [p.name]) (.inverted p)

/-- Any amount of white space. -/
def skipWhitespace : Parser :=
  ((many whitespace).map fun _ _ => .ok .nothing).named "skip_whitespace"

end Parselet.Parser
