import Parselet.Value.Basic
import Parselet.Pattern.Error

/-!
Why building or running a parser is given up. A fault is no failure to match: it ends the whole run.
-/

namespace Parselet

inductive Fault where
  | notOneCharacter
  | tooFewParsers
  | undefinedForward (name : Text)
  | redefinedForward (name : Text)
  | notAForward
  | unboundName (name : Text)
  | pattern (error : PatternError)
  | tooLongToWrite (bound : Nat)
  | tooLongToRead (bound digits : Nat)
  | notAnInteger (shown : Text)
  | notConvertible (kind : Kind)
  | infiniteInteger
  | undefinedInteger
  | tooLargeForFloat
  | noLength (kind : Kind)
  | notJoinable
  | notText (index : Nat) (kind : Kind)
  | notIterable (kind : Kind)
  | notIndexable (kind : Kind)
  | outOfRange (kind : Kind)
  | notNegatable (kind : Kind)
  | notAddable (left right : Kind)
  | notMatchable (kind : Kind)
  | notMatchablePart (kind : Kind)
  | noLowerCase (kind : Kind)
  | user (message : Text)
  deriving DecidableEq, Repr

namespace Fault

/-- The word by which messages about an index call a kind of sequence. -/
def sequenceWord : Kind → Text
  | .text => "string"
  | kind => kind.label

/-- A kind in single quotes, then what it lacks. -/
def about (kind : Kind) (lack : Text) : Text := "'" ++ kind.label ++ "' " ++ lack

def message : Fault → Text
  | notOneCharacter => "Exactly one character required."
  | tooFewParsers => "At least two parsers required."
  | undefinedForward name => "Forward parser `" ++ name ++ "` was used before being defined."
  | redefinedForward name => "Forward parser `" ++ name ++ "` is already defined."
  | notAForward => "'Parser' object has no attribute 'define'"
  | unboundName name => Text.quoted name
  | pattern error => error.message
  | tooLongToWrite bound => Limit.tooLongToWrite bound
  | tooLongToRead bound digits => Limit.tooLongToRead bound digits
  | notAnInteger shown => "invalid literal for int() with base 10: " ++ shown
  | notConvertible kind =>
    "int() argument must be a string, a bytes-like object or a real number, not '" ++
      kind.label ++ "'"
  | infiniteInteger => "cannot convert float infinity to integer"
  | undefinedInteger => "cannot convert float NaN to integer"
  | tooLargeForFloat => "int too large to convert to float"
  | noLength kind => "object of type '" ++ kind.label ++ "' has no len()"
  | notJoinable => "can only join an iterable"
  | notText index kind =>
    "sequence item " ++ Text.ofNat index ++ ": expected str instance, " ++ kind.label ++ " found"
  | notIterable kind => about kind "object is not iterable"
  | notIndexable kind => about kind "object is not subscriptable"
  | outOfRange kind => sequenceWord kind ++ " index out of range"
  | notNegatable kind => "bad operand type for unary -: '" ++ kind.label ++ "'"
  | notAddable left right =>
    "unsupported operand type(s) for +: '" ++ left.label ++ "' and '" ++ right.label ++ "'"
  | notMatchable kind => "startswith first arg must be str or a tuple of str, not " ++ kind.label
  | notMatchablePart kind => "tuple for startswith must only contain str, not " ++ kind.label
  | noLowerCase kind => about kind "object has no attribute 'lower'"
  | user message => message

end Fault

end Parselet
