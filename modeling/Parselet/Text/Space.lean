import Parselet.Text.Basic
import Parselet.Text.Ranges

/-!
White space: the separators and the control characters that act as such.
-/

namespace Parselet

def spaceRanges : Ranges where
  ranges := [
    (0x9, 0xd), (0x1c, 0x20), (0x85, 0x85), (0xa0, 0xa0), (0x1680, 0x1680), (0x2000, 0x200a),
    (0x2028, 0x2029), (0x202f, 0x202f), (0x205f, 0x205f), (0x3000, 0x3000)]

def CodePoint.isSpace (c : CodePoint) : Bool := spaceRanges.contains c

/-- The part of `t` after its leading white space. -/
def Text.trimStart (t : Text) : Text := t.dropWhile CodePoint.isSpace

end Parselet
