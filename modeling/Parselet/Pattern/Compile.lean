import Parselet.Matcher
import Parselet.Pattern.Place
import Parselet.Pattern.Reader

/-!
Patterns that have been read and can be searched for.
-/

namespace Parselet

/-- A pattern ready for use, with the text it was read from. -/
structure Pattern where
  source : Text
  flags : Pattern.Flags
  node : Pattern.Node
  deriving Repr

namespace Pattern

/-- Reads a pattern. The limit is that of the run, and `names` are the characters that the pattern
may write by their names. -/
def compile (limit : Limit) (names : CharacterNames) (source : Text) (flags : Flags) :
    Except PatternError Pattern := do
  let (node, flags) ← read limit names source flags
  return ⟨source, flags, node⟩

def matcher (p : Pattern) : Matcher :=
  ⟨p.source, p.node.match? p.flags, Node.append_of_match⟩

end Pattern

end Parselet
