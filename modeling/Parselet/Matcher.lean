import Parselet.Text.Basic

/-!
What the parsers need of regular expressions, whichever engine looks for them.
-/

namespace Parselet

/-- A regular expression ready for use: the text it was read from, and a search for it at the
beginning of a text, which gives what was found and what follows that. -/
structure Matcher where
  source : Text
  match? : Text → Option (Text × Text)
  append_of_match : ∀ {t found rest : Text}, match? t = some (found, rest) → found ++ rest = t

end Parselet
