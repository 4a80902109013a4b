import Parselet.Text.Ascii
import Parselet.Parser.Combinator

/-!
Quoted text. After the escape character stands a key of a table, the letter `u` with four
hexadecimal digits, or any other character for itself.
-/

namespace Parselet.Parser

/-- What the keys of an escape table stand for. -/
abbrev Escapes := List (Text × Text)

def standardEscapes : Escapes := [
  ("b", [.ofNat 0x08]), ("f", [.ofNat 0x0C]), ("n", [.lineFeed]), ("r", [.carriageReturn]),
  ("t", [.tabulator])]

/-- The character whose number a sequence of hexadecimal digits writes. -/
def characterOf (digits : Value) : Except Fault Value := do
  return .text [CodePoint.ofNat (Text.numberIn 16 (← digits.joined))]

def hexDigit : Parser := satisfy (fun c => Text.hexDigits.contains c) "a hexadecimal digit"

/-- The part of a numeric escape after the escape character. -/
def unicodeEscape : Parser :=
  (((character 'u').andThen (seq [hexDigit, hexDigit, hexDigit, hexDigit])).map
    fun _ v => characterOf v).named "unicode_escape"

def isKey (escapes : Escapes) (c : CodePoint) : Bool := (escapes.lookup [c]).isSome

/-- What a key of the table stands for. -/
def meaning (escapes : Escapes) : Value → Except Fault Value
  | .text t =>
    match escapes.lookup t with
    | some found => .ok (.text found)
    | none => .error (.unboundName t)
  | v => .error (.notText 0 v.kind)

/-- The escape character and what it escapes. -/
def escaped (escape : CodePoint) (escapes : Escapes) : Parser :=
  (character escape).andThen (oneOf [
    (satisfy (isKey escapes) "an escape sequence").map fun _ v => meaning escapes v,
    unicodeEscape,
    satisfy (fun _ => true) "a character to escape"])

/-- A character that is neither of the two special ones. -/
def unescaped (quote escape : CodePoint) : Parser :=
  satisfy (fun c => c ≠ quote && c ≠ escape) "a string character"

/-- Text between two quotes, with the escapes in it resolved. -/
def quotedString (quote escape : CodePoint) (escapes : Escapes) : Parser :=
  (between (character quote)
    ((many ((escaped escape escapes).orElse (unescaped quote escape))).map Value.Function.joined)
    (character quote)).named "quoted_string"

end Parselet.Parser
