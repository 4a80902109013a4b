import Parselet.Text.Digit
import Parselet.Text.Space
import Parselet.Text.Letter
import Parselet.Text.Numeral
import Parselet.Pattern.Fold

/-!
Backtracking search for a match that starts at the beginning of a text. A node is run together with
what has to match after it; alternatives are tried in order, and the first way in which all that
follows succeeds is taken.
-/

namespace Parselet.Pattern

/-- The characters of words: letters, numerals and the underscore. -/
def isWordChar (c : CodePoint) : Bool :=
  c.isLetter || c.isDigit || c.isNumeral || c = CodePoint.ofChar '_'

def isAscii (c : CodePoint) : Bool := c.val < 0x80

def CharClass.holds (flags : Flags) : CharClass → CodePoint → Bool
  | .digit, c => c.isDigit && (!flags.ascii || isAscii c)
  | .space, c => if flags.ascii then isPlainSpace c else c.isSpace
  | .word, c => isWordChar c && (!flags.ascii || isAscii c)

def inRange (low high c : CodePoint) : Bool := low ≤ c && c ≤ high

/-- Without regard to case, `c` is the folded character of the input, and an item stands for all
that folds to something alike. -/
def SetItem.holds (flags : Flags) : SetItem → CodePoint → Bool
  | .literal x, c => if flags.ignoreCase then (flags.alike c).contains (flags.fold x) else x = c
  | .range low high, c =>
    if flags.ignoreCase then
      (flags.alike c).any fun y => (flags.unfold y).any (inRange low high)
    else inRange low high c
  | .charClass k negated, c => k.holds flags c != negated

def CharTest.holds (flags : Flags) : CharTest → CodePoint → Bool
  | .any, c => flags.dotAll || c ≠ .lineFeed
  | .set negated items, c =>
    let c := if flags.ignoreCase then flags.fold c else c
    (items.any fun item => item.holds flags c) != negated

/-- What is known of the groups, latest first: where they were opened, and where they were closed
with the text that they captured. -/
structure Groups where
  opened : List (Nat × Nat) := []
  closed : List (Nat × Nat × Text) := []

/-- Where a search stands: the text before it, nearest character first, the text after it, and the
groups so far. -/
structure Place where
  before : Text
  after : Text
  position : Nat
  groups : Groups

def Place.start (t : Text) : Place := ⟨[], t, 0, {}⟩

def Place.forward? (p : Place) : Option (CodePoint × Place) :=
  match p.after with
  | [] => none
  | c :: rest => some (c, ⟨c :: p.before, rest, p.position + 1, p.groups⟩)

/-- The place `width` characters earlier. -/
def Place.back? (width : Nat) (p : Place) : Option Place :=
  if p.position < width then none
  else
    some ⟨p.before.drop width, (p.before.take width).reverse ++ p.after, p.position - width,
      p.groups⟩

def Place.enter (p : Place) (group : Nat) : Place :=
  { p with groups.opened := (group, p.position) :: p.groups.opened }

/-- Records that the group has captured the text from `start` to here. -/
def Place.close (p : Place) (group : Nat) (start : Place) : Place :=
  let captured := start.after.take (p.position - start.position)
  { p with groups.closed := (group, p.position, captured) :: p.groups.closed }

def Place.captured? (p : Place) (group : Nat) : Option Text :=
  (p.groups.closed.lookup group).map Prod.snd

/-- Whether the group has taken part. One that has been opened again since counts only if it was
closed no earlier than there. -/
def Place.hasGroup (p : Place) (group : Nat) : Bool :=
  match p.groups.closed.lookup group, p.groups.opened.lookup group with
  | some (stop, _), some start => start ≤ stop
  | _, _ => false

/-- Whether exactly one of the neighbours is a character of words. -/
def Place.atBoundary (flags : Flags) (p : Place) : Bool :=
  let isWord (t : Text) : Bool := match t with
    | [] => false
    | c :: _ => CharClass.word.holds flags c
  isWord p.before != isWord p.after

def Place.isEmptyText (p : Place) : Bool := p.before.isEmpty && p.after.isEmpty

def Anchor.holds (flags : Flags) (a : Anchor) (p : Place) : Bool :=
  match a with
  | .lineStart => p.before.isEmpty || (flags.multiline && p.before.head? = some CodePoint.lineFeed)
  | .lineEnd =>
    p.after.isEmpty || p.after = [CodePoint.lineFeed] ||
      (flags.multiline && p.after.head? = some CodePoint.lineFeed)
  | .textStart => p.before.isEmpty
  | .textEnd => p.after.isEmpty
  | .boundary => !p.isEmptyText && p.atBoundary flags
  | .nonBoundary => !p.isEmptyText && !p.atBoundary flags

/-- The place after `t`, if `t` comes next. -/
def Place.after? (flags : Flags) (p : Place) : Text → Option Place
  | [] => some p
  | x :: t =>
    match p.forward? with
    | none => none
    | some (c, q) =>
      let same := if flags.ignoreCase then flags.fold c = flags.fold x else c = x
      if same then q.after? flags t else none

/-- What has to match from a place on; the result is the place where all ended. -/
abbrev Rest := Place → Option Place

namespace Rest

/-- One more iteration after another `count` times, then `next`. -/
def times (step : Rest → Rest) (next : Rest) : Nat → Rest
  | 0, p => next p
  | count + 1, p => step (times step next count) p

/-- Goes on as long as it can, up to `most` times, and gives back one iteration after the other.
An iteration that starts where the one before it started is not made, which bounds the number of
iterations by the text left; `fuel` is that bound. -/
def greedy (step : Rest → Rest) (next : Rest) : Nat → Option Nat → Option Nat → Rest
  | 0, _, _, p => next p
  | fuel + 1, most, last, p =>
    if most = some 0 || last = some p.position then next p
    else
      match step (greedy step next fuel (most.map (· - 1)) (some p.position)) p with
      | some q => some q
      | none => next p

/-- Stops as soon as what follows matches. -/
def lazy (step : Rest → Rest) (next : Rest) : Nat → Option Nat → Option Nat → Rest
  | 0, _, _, p => next p
  | fuel + 1, most, last, p =>
    match next p with
    | some q => some q
    | none =>
      if most = some 0 || last = some p.position then none
      else step (lazy step next fuel (most.map (· - 1)) (some p.position)) p

/-- Where the iterations end that are made without giving anything back. -/
def exhaust (step : Rest → Rest) : Nat → Option Nat → Place → Place
  | 0, _, p => p
  | fuel + 1, most, p =>
    if most = some 0 then p
    else
      match step some p with
      | none => p
      | some q => if q.position = p.position then q else exhaust step fuel (most.map (· - 1)) q

end Rest

def Node.run (flags : Flags) : Node → Rest → Rest
  | .empty, next, p => next p
  | .char test, next, p =>
    match p.forward? with
    | none => none
    | some (c, q) => if test.holds flags c then next q else none
  | .anchor a, next, p => if a.holds flags p then next p else none
  | .seq first second, next, p => first.run flags (second.run flags next) p
  | .alt first second, next, p =>
    match first.run flags next p with
    | some q => some q
    | none => second.run flags next p
  | .capture group body, next, p =>
    -- the text of the group is known before anything that follows is looked at
    body.run flags (fun q => next (q.close group p)) (p.enter group)
  | .repeated greed least most body, next, p =>
    -- an optional iteration that consumes nothing is the last one, so this is enough
    let fuel := p.after.length + 2
    let more := most.map (· - least)
    let step := body.run flags
    match greed with
    | .greedy => Rest.times step (Rest.greedy step next fuel more none) least p
    | .lazy => Rest.times step (Rest.lazy step next fuel more none) least p
    | .possessive =>
      match Rest.times step some least p with
      | none => none
      | some q => next (Rest.exhaust step fuel more q)
  | .reference group, next, p =>
    match p.captured? group with
    | none => none
    | some t =>
      match p.after? flags t with
      | none => none
      | some q => next q
  | .conditional group yes no, next, p =>
    if p.hasGroup group then yes.run flags next p else no.run flags next p
  | .flagged on off body, next, p => body.run (flags.inside on off) next p
  | .lookAhead negated body, next, p =>
    match body.run flags some p with
    | none => if negated then next p else none
    | some q => if negated then none else next { p with groups := q.groups }
  | .lookBehind negated width body, next, p =>
    -- the body has one width only, so from there it can end nowhere but here
    match (p.back? width.1).bind (body.run flags some) with
    | none => if negated then next p else none
    | some q => if negated then none else next { p with groups := q.groups }
  | .atomic body, next, p =>
    match body.run flags some p with
    | none => none
    | some q => next q

/-- The text matched at the beginning of `t`, and what follows it. -/
def Node.match? (flags : Flags) (n : Node) (t : Text) : Option (Text × Text) :=
  match n.run flags some (Place.start t) with
  | none => none
  | some p => some (p.before.reverse, p.after)

end Parselet.Pattern
