import Parselet.Parser.Combinator

/-!
Names and the tokens of a line of text: each token takes the white space after it with it.
-/

namespace Parselet.Parser

/-- The text of a first character and a list of further ones. -/
def nameOf (parts : Value) : Except Fault Value := do
  let first ← parts.item 0
  let further ← (← parts.item 1).joined
  match first with
  | .text c => return .text (c ++ further)
  | v => .error (.notAddable v.kind .text)

/-- A letter or underscore, followed by letters, digits and underscores. -/
def identifier : Parser :=
  ((seq [letter.orElse (character '_'), many (alphanumeric.orElse (character '_'))]).map
    fun _ v => nameOf v).named "identifier"

/-- Takes the white space after `p` with it. -/
def lexeme (p : Parser) : Parser := p.followedBy skipWhitespace

def symbol (s : Text) : Parser := lexeme (string s)

/-- Items in brackets with commas between them, and white space anywhere around them. -/
def commaList (p : Parser) : Parser :=
  (skipWhitespace.andThen
    (between (symbol "[") (sepBy (lexeme p) (symbol ",")) (symbol "]"))).named
    (callName "comma_list" [p.name])

end Parselet.Parser
