import Parselet.Result.Basic

/-!
Functions on the input that can be made into parsers as they are. Some of them break the rule that
what is left is an end of the input.
-/

namespace Parselet.Sample

/-- Consumes everything and counts it. -/
def length (src : Text) : Except Fault Result := .ok (.success (.int src.length) [])

/-- A ten for an `x`. -/
def ten (src : Text) : Except Fault Result :=
  match src with
  | [] => .ok (.failure "Expected 'x'." (some src))
  | c :: rest =>
    if c = CodePoint.ofChar 'x' then .ok (.success (.int 10) rest)
    else .ok (.failure "Expected 'x'." (some src))

/-- Fails without telling where. -/
def noSource (_ : Text) : Except Fault Result := .ok (.failure "no source" none)

/-- Leaves more than it was given. -/
def grow (src : Text) : Except Fault Result := .ok (.success (.text "g") (src ++ "+"))

/-- The first two characters, or fewer at the end. -/
def take2 (src : Text) : Except Fault Result := .ok (.success (.text (src.take 2)) (src.drop 2))

/-- Drops one character and answers `answer`. -/
def skipOne (answer : Text) (src : Text) : Except Fault Result :=
  .ok (.success (.text answer) (src.drop 1))

end Parselet.Sample
