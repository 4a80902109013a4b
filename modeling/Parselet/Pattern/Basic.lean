import Parselet.Text.Basic

/-!
Regular expressions as trees. A tree says what to match; the flags that are read beside it, and
those that a group turns on or off, say how single characters and line ends are treated.
-/

namespace Parselet.Pattern

/-- How a pattern is applied. `ascii` limits the character classes and the folding of case; of it,
`unicode` and `locale` only one can hold. `template` forbids repetitions. -/
structure Flags where
  ignoreCase : Bool := false
  multiline : Bool := false
  dotAll : Bool := false
  verbose : Bool := false
  ascii : Bool := false
  «unicode» : Bool := false
  locale : Bool := false
  template : Bool := false
  deriving DecidableEq, Repr

namespace Flags

/-- Two sets of flags joined flag by flag. -/
def combine (op : Bool → Bool → Bool) (a b : Flags) : Flags where
  ignoreCase := op a.ignoreCase b.ignoreCase
  multiline := op a.multiline b.multiline
  dotAll := op a.dotAll b.dotAll
  verbose := op a.verbose b.verbose
  ascii := op a.ascii b.ascii
  «unicode» := op a.unicode b.unicode
  locale := op a.locale b.locale
  template := op a.template b.template

def union : Flags → Flags → Flags := combine (· || ·)

def minus : Flags → Flags → Flags := combine (· && !·)

/-- Whether a flag is in both. -/
def meets (a b : Flags) : Bool := combine (· && ·) a b ≠ {}

/-- Whether one of the flags is set that say what the characters are. -/
def setsAlphabet (flags : Flags) : Bool := flags.ascii || flags.unicode || flags.locale

/-- The flags inside a group that turns some on and some off. -/
def inside (flags on off : Flags) : Flags :=
  let kept :=
    if on.setsAlphabet then { flags with ascii := false, «unicode» := false, locale := false }
    else flags
  (kept.union on).minus off

end Flags

/-- The control characters that count as white space in every flavour, and the space. -/
def isPlainSpace (c : CodePoint) : Bool := (0x09 ≤ c.val && c.val ≤ 0x0D) || c.val = 0x20

/-- The classes of characters that have an escape of their own. -/
inductive CharClass where
  | digit
  | space
  | word
  deriving DecidableEq, Repr

inductive SetItem where
  | literal (c : CodePoint)
  | range (low high : CodePoint)
  | charClass (k : CharClass) (negated : Bool)
  deriving DecidableEq, Repr

/-- What a single character must satisfy. -/
inductive CharTest where
  | any
  | set (negated : Bool) (items : List SetItem)
  deriving DecidableEq, Repr

/-- The conditions on a position. -/
inductive Anchor where
  | lineStart
  | lineEnd
  | textStart
  | textEnd
  | boundary
  | nonBoundary
  deriving DecidableEq, Repr

/-- How often a repetition tries to go on: as long as possible, as short as possible, or as long as
possible without giving anything back. -/
inductive Greed where
  | greedy
  | lazy
  | possessive
  deriving DecidableEq, Repr

/-- The fewest and the most characters that a node can match, counted up to `Width.bound`. -/
abbrev Width := Nat × Nat

inductive Node where
  | empty
  | char (test : CharTest)
  | anchor (a : Anchor)
  | seq (first second : Node)
  | alt (first second : Node)
  | capture (group : Nat) (body : Node)
  | repeated (greed : Greed) (least : Nat) (most : Option Nat) (body : Node)
  | reference (group : Nat)
  | conditional (group : Nat) (yes no : Node)
  | flagged (on off : Flags) (body : Node)
  | lookAhead (negated : Bool) (body : Node)
  | lookBehind (negated : Bool) (width : Width) (body : Node)
  | atomic (body : Node)
  deriving DecidableEq, Repr

def Node.literal (c : CodePoint) : Node := .char (.set false [.literal c])

def Node.ofList : List Node → Node
  | [] => .empty
  | [n] => n
  | n :: ns => .seq n (ofList ns)

end Parselet.Pattern
