import Parselet.Limit
import Parselet.Text.Quoted

/-!
Why a pattern is refused, with the position in the pattern where that is known.
-/

namespace Parselet

/-- What is wrong with a pattern. -/
inductive PatternProblem where
  | unterminatedGroup
  | unbalancedParenthesis
  | unterminatedSet
  | nothingToRepeat
  | multipleRepeat
  | repeatBounds
  | badGroupName (name : Text)
  | missingGroupName
  | unterminatedName (terminator : Text)
  | redefinedGroup (name : Text) (group earlier : Nat)
  | unknownGroup (name : Text)
  | badGroupNumber
  | invalidReference (group : Text)
  | openReference
  | badRange (low high : Text)
  | danglingEscape
  | badEscape (escape : Text)
  | incompleteEscape (escape : Text)
  | octalEscape (escape : Text)
  | missingBrace
  | missingCharacterName
  | unknownCharacter (name : Text)
  | unknownExtension (extension : Text)
  | unexpectedEnd
  | unterminatedComment
  | tooManyBranches
  | flagsNotAtStart
  | unknownFlag
  | missingFlag
  | unterminatedFlags
  | unterminatedFlagsOff
  | inlineLocale
  | inlineFlagsClash
  | alphabetOff
  | templateFlag (switched : Text)
  | flagOnAndOff
  | sameLookBehind
  deriving DecidableEq, Repr

/-- Why a pattern cannot be used. -/
inductive PatternError where
  | malformed (problem : PatternProblem) (source : Text) (position : Nat)
  | variableLookBehind
  | farLookBehind
  | repetitionInTemplate (operator : Text)
  | repetitionTooLarge
  | numberTooLong (bound digits : Nat)
  | localeFlag
  | asciiAndUnicodeFlags
  | flagsOfCompiled
  deriving DecidableEq, Repr

def PatternProblem.message : PatternProblem → Text
  | .unterminatedGroup => "missing ), unterminated subpattern"
  | .unbalancedParenthesis => "unbalanced parenthesis"
  | .unterminatedSet => "unterminated character set"
  | .nothingToRepeat => "nothing to repeat"
  | .multipleRepeat => "multiple repeat"
  | .repeatBounds => "min repeat greater than max repeat"
  | .badGroupName name => "bad character in group name " ++ Text.quoted name
  | .missingGroupName => "missing group name"
  | .unterminatedName terminator => "missing " ++ terminator ++ ", unterminated name"
  | .redefinedGroup name group earlier =>
    "redefinition of group name " ++ Text.quoted name ++ " as group " ++ Text.ofNat group ++
      "; was group " ++ Text.ofNat earlier
  | .unknownGroup name => "unknown group name " ++ Text.quoted name
  | .badGroupNumber => "bad group number"
  | .invalidReference group => "invalid group reference " ++ group
  | .openReference => "cannot refer to an open group"
  | .badRange low high => "bad character range " ++ low ++ "-" ++ high
  | .danglingEscape => "bad escape (end of pattern)"
  | .badEscape escape => "bad escape " ++ escape
  | .incompleteEscape escape => "incomplete escape " ++ escape
  | .octalEscape escape => "octal escape value " ++ escape ++ " outside of range 0-0o377"
  | .missingBrace => "missing \x7b"
  | .missingCharacterName => "missing character name"
  | .unknownCharacter name => "undefined character name " ++ Text.quoted name
  | .unknownExtension extension => "unknown extension ?" ++ extension
  | .unexpectedEnd => "unexpected end of pattern"
  | .unterminatedComment => "missing ), unterminated comment"
  | .tooManyBranches => "conditional backref with more than two branches"
  | .flagsNotAtStart => "global flags not at the start of the expression"
  | .unknownFlag => "unknown flag"
  | .missingFlag => "missing flag"
  | .unterminatedFlags => "missing -, : or )"
  | .unterminatedFlagsOff => "missing :"
  | .inlineLocale => "bad inline flags: cannot use 'L' flag with a str pattern"
  | .inlineFlagsClash => "bad inline flags: flags 'a', 'u' and 'L' are incompatible"
  | .alphabetOff => "bad inline flags: cannot turn off flags 'a', 'u' and 'L'"
  | .templateFlag switched => "bad inline flags: cannot turn " ++ switched ++ " global flag"
  | .flagOnAndOff => "bad inline flags: flag turned on and off"
  | .sameLookBehind => "cannot refer to group defined in the same lookbehind subpattern"

/-- A position in a text, and for a text of several lines also the line and column. -/
def PatternError.place (source : Text) (position : Nat) : Text :=
  let line := (source.take position).count CodePoint.lineFeed + 1
  let column := ((source.take position).reverse.takeWhile (· ≠ CodePoint.lineFeed)).length + 1
  "position " ++ Text.ofNat position ++
    if source.contains CodePoint.lineFeed then
      " (line " ++ Text.ofNat line ++ ", column " ++ Text.ofNat column ++ ")"
    else []

def PatternError.message : PatternError → Text
  | .malformed problem source position => problem.message ++ " at " ++ place source position
  | .variableLookBehind => "look-behind requires fixed-width pattern"
  | .farLookBehind => "looks too much behind"
  | .repetitionInTemplate operator => "internal: unsupported template operator " ++ operator
  | .repetitionTooLarge => "the repetition number is too large"
  | .numberTooLong bound digits => Limit.tooLongToRead bound digits
  | .localeFlag => "cannot use LOCALE flag with a str pattern"
  | .asciiAndUnicodeFlags => "ASCII and UNICODE flags are incompatible"
  | .flagsOfCompiled => "cannot process flags argument with a compiled pattern"

end Parselet
