import Parselet.Text.Basic
import Parselet.Text.Printable

/-!
Texts as they are shown inside messages and names: between quotes, on one line, with the characters
that cannot be shown written by number.
-/

namespace Parselet.Text

/-- The last `width` hexadecimal digits of `n`. -/
def hex : Nat → Nat → Text
  | 0, _ => []
  | width + 1, n => hex width (n / 16) ++ [CodePoint.ofChar (Nat.digitChar (n % 16))]

def singleQuote : CodePoint := '\''

def doubleQuote : CodePoint := '"'

def backslash : CodePoint := '\\'

/-- The double quote is chosen only where it saves escaping a single one. -/
def chooseQuote (t : Text) : CodePoint :=
  if t.contains singleQuote && !t.contains doubleQuote then doubleQuote else singleQuote

/-- How `c` is shown between two `quote`s. -/
def escape (quote c : CodePoint) : Text :=
  if c = quote || c = backslash then [backslash, c]
  else if c = .lineFeed then "\\n"
  else if c = .carriageReturn then "\\r"
  else if c = .tabulator then "\\t"
  else if c.isPrintable then [c]
  else if c.val < 0x100 then "\\x" ++ hex 2 c
  else if c.val < 0x10000 then "\\u" ++ hex 4 c
  else "\\U" ++ hex 8 c

def quoted (t : Text) : Text :=
  let quote := chooseQuote t
  quote :: t.flatMap (escape quote) ++ [quote]

end Parselet.Text
