import Parselet.Text.Ascii
import Parselet.Text.Identifier
import Parselet.Value.Function
import Parselet.Pattern.Basic
import Parselet.Pattern.Error

/-!
Reading a regular expression. The reader looks one token ahead, where a token is a character or a
backslash with the character after it; every refusal tells where in the pattern it arose.
-/

namespace Parselet.Pattern

abbrev Token := Text

namespace Width

def bound : Nat := 18446744073709551616

def cut (least most : Nat) : Width := (min least bound, min most bound)

def add (a b : Width) : Width := cut (a.1 + b.1) (a.2 + b.2)

def either (a b : Width) : Width := (min a.1 b.1, max a.2 b.2)

/-- What matches nothing can be repeated without end and still matches nothing. -/
def times (least : Nat) (most : Option Nat) (a : Width) : Width :=
  match most with
  | some count => cut (a.1 * least) (a.2 * count)
  | none => cut (a.1 * least) (if a.2 = 0 then 0 else bound)

end Width

def Node.width (groupWidth : Nat → Width) : Node → Width
  | .empty => (0, 0)
  | .char _ => (1, 1)
  | .anchor _ => (0, 0)
  | .seq a b => Width.add (a.width groupWidth) (b.width groupWidth)
  | .alt a b => Width.either (a.width groupWidth) (b.width groupWidth)
  | .capture _ body => body.width groupWidth
  | .repeated _ least most body => Width.times least most (body.width groupWidth)
  | .reference group => groupWidth group
  | .conditional _ yes no => Width.either (yes.width groupWidth) (no.width groupWidth)
  | .flagged _ _ body => body.width groupWidth
  | .lookAhead _ _ => (0, 0)
  | .lookBehind _ _ _ => (0, 0)
  | .atomic body => body.width groupWidth

/-- How far a look behind can look. -/
def farthestLookBehind : Nat := 4294967295

/-- What a repetition is called where it is refused. -/
def Greed.operator : Greed → Text
  | .greedy => "MAX_REPEAT"
  | .lazy => "MIN_REPEAT"
  | .possessive => "POSSESSIVE_REPEAT"

/-- What is refused of a tree when all of it has been read: a look behind that has not one width or
looks too far, and under the flag for templates every repetition. What starts first is reported. -/
def Node.check (template : Bool) : Node → Except PatternError Unit
  | .empty | .char _ | .anchor _ | .reference _ => return
  | .seq a b | .alt a b | .conditional _ a b => do
    -- the parts stand in the order of the pattern, so the first one refused is reported
    a.check template
    b.check template
  | .capture _ body | .flagged _ _ body | .lookAhead _ body | .atomic body => body.check template
  | .repeated greed _ _ body => do
    if template then throw (.repetitionInTemplate greed.operator)
    body.check template
  | .lookBehind _ (least, most) body => do
    if farthestLookBehind < least then throw .farLookBehind
    if least ≠ most then throw .variableLookBehind
    body.check template

/-- The characters that have a name. -/
abbrev CharacterNames := Text → Option CodePoint

/-- The state of a reader. `next` is the token ahead, `rest` what follows it, and `index` where that
starts. A group has a width from the moment it is closed. The numbers that conditions have asked for
are kept with the places where they did first, latest first. -/
structure Scanner where
  limit : Limit
  characterNames : CharacterNames
  source : Text
  next : Option Token
  rest : Text
  index : Nat
  flags : Flags
  groupCount : Nat
  groupNames : List (Text × Nat)
  groupWidths : List (Nat × Width)
  groupsBeforeLookBehind : Option Nat
  conditions : List (Nat × Nat)

abbrev Reader := StateT Scanner (Except PatternError)

namespace Reader

/-- Where the token ahead starts. -/
def position : Reader Nat := do
  let s ← get
  return s.index - (s.next.getD []).length

def refuseAt (problem : PatternProblem) (position : Nat) : Reader α := do
  throw (.malformed problem (← get).source position)

/-- Refuses the pattern for something `back` characters before the token ahead. -/
def refuse (problem : PatternProblem) (back : Nat) : Reader α := do
  refuseAt problem ((← position) - back)

/-- Replaces the token ahead by the one after it. -/
def advance : Reader Unit := do
  let s ← get
  match s.rest with
  | [] => set { s with next := none }
  | [c] =>
    if c = Text.backslash then refuseAt .danglingEscape (s.source.length - 1)
    else set { s with next := some [c], rest := [], index := s.index + 1 }
  | c :: d :: rest =>
    -- a backslash takes the character after it along, whatever that is
    if c = Text.backslash then
      set { s with next := some [c, d], rest := rest, index := s.index + 2 }
    else set { s with next := some [c], rest := d :: rest, index := s.index + 1 }

def peek : Reader (Option Token) := do return (← get).next

def take : Reader (Option Token) := do
  let t ← peek
  advance
  return t

def accept (c : Char) : Reader Bool := do
  if (← peek) = some [CodePoint.ofChar c] then
    advance
    return true
  else return false

/-- Starts again at `index`. -/
def restart (index : Nat) : Reader Unit := do
  modify fun s => { s with index := index, rest := s.source.drop index }
  advance

/-- The characters ahead, at most `count`, that are in `allowed`. -/
def takeWhile (allowed : Text) : Nat → Reader Text
  | 0 => return []
  | count + 1 => do
    match ← peek with
    | some [c] =>
      if allowed.contains c then
        advance
        return c :: (← takeWhile allowed count)
      else return []
    | _ => return []

/-- What comes up to `terminator`; `missing` is the problem if nothing does. -/
def takeUntil (terminator : Char) (missing : PatternProblem) : Nat → Text → Reader Text
  | 0, _ => refuse missing 0
  | fuel + 1, t => do
    match ← take with
    | none =>
      if t.isEmpty then refuse missing 0
      else refuse (.unterminatedName [CodePoint.ofChar terminator]) t.length
    | some u =>
      if u = [CodePoint.ofChar terminator] then
        if t.isEmpty then refuse missing 1 else return t
      else takeUntil terminator missing fuel (t ++ u)

/-- Skips what comes up to `terminator` and that too. Whether it came at all is the result. -/
def skipPast (terminator : CodePoint) : Nat → Reader Bool
  | 0 => return false
  | fuel + 1 => do
    match ← take with
    | none => return false
    | some t => if t = [terminator] then return true else skipPast terminator fuel

/-- How often a token can be taken before the end is reached for certain. -/
def size : Reader Nat := do return (← get).source.length + 1

end Reader

/-- The control characters that have an escape of one letter. -/
def controlEscapes : List (CodePoint × CodePoint) := [
  (.ofChar 'a', .ofNat 0x07), (.ofChar 'b', .ofNat 0x08), (.ofChar 'f', .ofNat 0x0C),
  (.ofChar 'n', .lineFeed), (.ofChar 'r', .carriageReturn), (.ofChar 't', .tabulator),
  (.ofChar 'v', .ofNat 0x0B), (Text.backslash, Text.backslash)]

def classEscapes : List (CodePoint × SetItem) := [
  (.ofChar 'd', .charClass .digit false), (.ofChar 'D', .charClass .digit true),
  (.ofChar 's', .charClass .space false), (.ofChar 'S', .charClass .space true),
  (.ofChar 'w', .charClass .word false), (.ofChar 'W', .charClass .word true)]

def anchorEscapes : List (CodePoint × Anchor) := [
  (.ofChar 'A', .textStart), (.ofChar 'Z', .textEnd), (.ofChar 'b', .boundary),
  (.ofChar 'B', .nonBoundary)]

namespace Reader

/-- The character with the number that exactly `count` hexadecimal digits write. -/
def hexEscape (c : CodePoint) (count : Nat) : Reader CodePoint := do
  let digits ← takeWhile Text.hexDigits count
  let escape := Text.backslash :: c :: digits
  if digits.length ≠ count then refuse (.incompleteEscape escape) escape.length
  let n := Text.numberIn 16 digits
  if h : n < 0x110000 then return ⟨n, h⟩ else refuse (.badEscape escape) escape.length

def octalEscape (digits : Text) : Reader CodePoint := do
  let n := Text.numberIn 8 digits
  if n ≤ 0o377 then return .ofNat n
  else
    let escape := Text.backslash :: digits
    refuse (.octalEscape escape) escape.length

/-- The character whose name follows in braces. -/
def nameEscape : Reader CodePoint := do
  if !(← accept '\x7b') then refuse .missingBrace 0
  let t ← takeUntil '\x7d' .missingCharacterName (← size) []
  match (← get).characterNames t with
  | some c => return c
  | none => refuse (.unknownCharacter t) (t.length + 4)

/-- The escapes of one character that mean the same inside a set and outside. -/
def plainEscape (c : CodePoint) : Reader CodePoint := do
  if c = CodePoint.ofChar 'x' then hexEscape c 2
  else if c = CodePoint.ofChar 'u' then hexEscape c 4
  else if c = CodePoint.ofChar 'U' then hexEscape c 8
  else if c = CodePoint.ofChar 'N' then nameEscape
  else if c.isAsciiLetter || Text.decimalDigits.contains c then
    refuse (.badEscape [Text.backslash, c]) 2
  else return c

def setEscape (c : CodePoint) : Reader SetItem := do
  match controlEscapes.lookup c, classEscapes.lookup c with
  | some d, _ => return .literal d
  | none, some item => return item
  | none, none =>
    if Text.octalDigits.contains c then
      return .literal (← octalEscape (c :: (← takeWhile Text.octalDigits 2)))
    else return .literal (← plainEscape c)

def checkLookBehind (group : Nat) : Reader Unit := do
  let s ← get
  match s.groupsBeforeLookBehind with
  | none => return
  | some bound =>
    if (s.groupWidths.lookup group).isNone then refuse .openReference 0
    if bound ≤ group then refuse .sameLookBehind 0

/-- A reference to the group with the given number, `back` characters of it already read. -/
def referenceTo (group back : Nat) : Reader Node := do
  if ((← get).groupWidths.lookup group).isNone then refuse .openReference back
  checkLookBehind group
  return .reference group

/-- A number is an octal escape if it has three octal digits, else a reference to a group. -/
def numberEscape (c : CodePoint) : Reader Node := do
  let second ← takeWhile Text.decimalDigits 1
  let third ← if !second.isEmpty && (c :: second).all Text.octalDigits.contains
    then takeWhile Text.octalDigits 1 else pure []
  -- three octal digits never refer to a group, even if there are that many
  if !third.isEmpty then return .literal (← octalEscape (c :: second ++ third))
  let group := Text.numberIn 10 (c :: second)
  if (← get).groupCount < group then
    refuse (.invalidReference (Text.ofNat group)) (second.length + 1)
  referenceTo group (second.length + 2)

def nodeEscape (c : CodePoint) : Reader Node := do
  match anchorEscapes.lookup c, classEscapes.lookup c, controlEscapes.lookup c with
  | some a, _, _ => return .anchor a
  | none, some item, _ => return .char (.set false [item])
  | none, none, some d => return .literal d
  | none, none, none =>
    if c = CodePoint.ofChar '0' then
      return .literal (← octalEscape (c :: (← takeWhile Text.octalDigits 2)))
    else if Text.decimalDigits.contains c then numberEscape c
    else return .literal (← plainEscape c)

def setToken : Token → Reader SetItem
  | [_, c] => setEscape c
  | [c] => return .literal c
  | _ => refuse .unexpectedEnd 0

/-- A range between the items that the tokens `low` and `high` stand for. -/
def range (low high : Token) (a b : SetItem) : Reader SetItem := do
  match a, b with
  | .literal x, .literal y =>
    if y < x then refuse (.badRange low high) (low.length + 1 + high.length)
    return .range x y
  | _, _ => refuse (.badRange low high) (low.length + 1 + high.length)

/-- The items of a set that starts at `start`, after those already read. A bracket that comes first
is an item. -/
def setItems (start : Nat) : Nat → List SetItem → Reader (List SetItem)
  | 0, _ => refuseAt .unterminatedSet start
  | fuel + 1, items => do
    let bracket : Token := "]"
    match ← take with
    | none => refuseAt .unterminatedSet start
    | some low =>
      if low = bracket && !items.isEmpty then return items
      let a ← setToken low
      if ← accept '-' then
        match ← take with
        | none => refuseAt .unterminatedSet start
        | some high =>
          if high = bracket then return items ++ [a, .literal (CodePoint.ofChar '-')]
          let item ← range low high a (← setToken high)
          setItems start fuel (items ++ [item])
      else setItems start fuel (items ++ [a])

/-- The greatest number of repetitions, which is kept for "no bound". -/
def repetitionBound : Nat := 4294967295

/-- The number of repetitions that `digits` write. -/
def repetitions (digits : Text) : Reader Nat := do
  if let some bound := (← get).limit then
    if bound < digits.length then throw (.numberTooLong bound digits.length)
  let n := Text.numberIn 10 digits
  if repetitionBound ≤ n then throw .repetitionTooLarge
  return n

/-- What a quantifier in braces says, if it is one; `start` is where its text starts. -/
def braces (start : Nat) : Reader (Option (Nat × Option Nat)) := do
  if (← peek) = some (Text.ofString "\x7d") then return none
  let low ← takeWhile Text.decimalDigits (← size)
  let high ← if ← accept ',' then takeWhile Text.decimalDigits (← size) else pure low
  if !(← accept '\x7d') then
    -- no quantifier after all, so the characters stand for themselves
    restart start
    return none
  let least ← if low.isEmpty then pure 0 else repetitions low
  let most ← if high.isEmpty then pure none else some <$> repetitions high
  if most.any (· < least) then refuseAt .repeatBounds start
  return some (least, most)

/-- The bounds of a quantifier that starts with `c`; `none` if a brace stands for itself. -/
def quantifier (c : CodePoint) (start : Nat) : Reader (Option (Nat × Option Nat)) := do
  if c = CodePoint.ofChar '?' then return some (0, some 1)
  else if c = CodePoint.ofChar '*' then return some (0, none)
  else if c = CodePoint.ofChar '+' then return some (1, none)
  else braces start

def greed : Reader Greed := do
  if ← accept '?' then return .lazy
  else if ← accept '+' then return .possessive
  else return .greedy

/-- What the part before a quantifier is: neither a position nor a repetition can be repeated. -/
inductive Repeatable where
  | anchor
  | repetition
  | other

/-- The parts of a sequence, latest first. -/
abbrev Parts := List (Node × Repeatable)

def Parts.add (parts : Parts) (n : Node) : Parts :=
  match n with
  | .anchor _ => (n, .anchor) :: parts
  | .repeated .. => (n, .repetition) :: parts
  | _ => (n, .other) :: parts

def Parts.node (parts : Parts) : Node := Node.ofList (parts.reverse.map Prod.fst)

/-- Repeats the latest part as the quantifier that starts with `c`, already read, says. -/
def quantify (c : CodePoint) (parts : Parts) : Reader Parts := do
  let start ← position
  match ← quantifier c start with
  | none => return parts.add (.literal c)
  | some (least, most) =>
    match parts with
    | [] => refuseAt .nothingToRepeat (start - 1)
    | (_, .anchor) :: _ => refuseAt .nothingToRepeat (start - 1)
    | (_, .repetition) :: _ => refuseAt .multipleRepeat (start - 1)
    | (n, .other) :: earlier =>
      return (.repeated (← greed) least most n, .repetition) :: earlier

def name (terminator : Char) : Reader Text := do
  let t ← takeUntil terminator .missingGroupName (← size) []
  if !t.isIdentifier then refuse (.badGroupName t) (t.length + 1)
  return t

def openGroup (groupName : Option Text) : Reader Nat := do
  let s ← get
  let group := s.groupCount + 1
  match groupName with
  | none => set { s with groupCount := group }
  | some t =>
    match s.groupNames.lookup t with
    | some earlier => refuse (.redefinedGroup t group earlier) (t.length + 1)
    | none => set { s with groupCount := group, groupNames := (t, group) :: s.groupNames }
  return group

def widthOf (n : Node) : Reader Width := do
  let widths := (← get).groupWidths
  return n.width fun group => (widths.lookup group).getD (0, 0)

def closeGroup (group : Nat) (body : Node) : Reader Unit := do
  let width ← widthOf body
  modify fun s => { s with groupWidths := (group, width) :: s.groupWidths }

def lookBehind (negated : Bool) (body : Node) : Reader Node := do
  return .lookBehind negated (← widthOf body) body

def groupNamed (t : Text) : Reader Nat := do
  match (← get).groupNames.lookup t with
  | some group => return group
  | none => refuse (.unknownGroup t) (t.length + 1)

def namedReference : Reader Node := do
  let t ← name ')'
  referenceTo (← groupNamed t) (t.length + 1)

/-- The numbers of groups stay below this. -/
def groupBound : Nat := 1073741823

/-- The group that the number `t` stands for, which need not have been opened yet. -/
def groupNumbered (t : Text) : Reader Nat := do
  let s ← get
  match Value.readInt s.limit t with
  | .error _ => refuse (.badGroupName t) (t.length + 1)
  | .ok (.negSucc _) => refuse (.badGroupName t) (t.length + 1)
  | .ok (.ofNat group) =>
    if group = 0 then refuse .badGroupNumber (t.length + 1)
    if groupBound ≤ group then refuse (.invalidReference (Text.ofNat group)) (t.length + 1)
    -- whether there is such a group is not known before the end
    if (s.conditions.lookup group).isNone then
      set { s with conditions := (group, (← position) - (t.length + 1)) :: s.conditions }
    return group

/-- The group that a conditional asks for, by its name or number. -/
def condition : Reader Nat := do
  let t ← takeUntil ')' .missingGroupName (← size) []
  let group ← if t.isIdentifier then groupNamed t else groupNumbered t
  checkLookBehind group
  return group

def setFlag (flags : Flags) (c : CodePoint) : Option Flags :=
  if c = CodePoint.ofChar 'i' then some { flags with ignoreCase := true }
  else if c = CodePoint.ofChar 'm' then some { flags with multiline := true }
  else if c = CodePoint.ofChar 's' then some { flags with dotAll := true }
  else if c = CodePoint.ofChar 'x' then some { flags with verbose := true }
  else if c = CodePoint.ofChar 'a' then some { flags with ascii := true }
  else if c = CodePoint.ofChar 'u' then some { flags with «unicode» := true }
  else if c = CodePoint.ofChar 'L' then some { flags with locale := true }
  else if c = CodePoint.ofChar 't' then some { flags with template := true }
  else none

/-- The next letter of a flag, or what ends the flags; `missing` is the problem if neither comes. -/
def flagLetter (ends : Text) (missing : PatternProblem) : Reader CodePoint := do
  match ← take with
  | none => refuse missing 0
  | some [c] =>
    if ends.contains c || (setFlag {} c).isSome then return c
    -- only a letter can be a flag that is not known
    else refuse (if c.isLetter then .unknownFlag else missing) 1
  | some t => refuse missing t.length

/-- The flags whose letters follow, of which `c` is the first, and what ended them. Each is checked
with those before it. -/
def flagLetters (check : Flags → Reader Unit) (ends : Text) (missing : PatternProblem) :
    Nat → Flags → CodePoint → Reader (Flags × CodePoint)
  | 0, _, _ => refuse missing 0
  | fuel + 1, flags, c => do
    let flags := (setFlag flags c).getD flags
    check flags
    let d ← flagLetter ends missing
    if ends.contains d then return (flags, d)
    else flagLetters check ends missing fuel flags d

def checkOn (flags : Flags) : Reader Unit := do
  if flags.locale then refuse .inlineLocale 0
  if flags.ascii && flags.unicode then refuse .inlineFlagsClash 0

def checkOff (flags : Flags) : Reader Unit := do
  if flags.setsAlphabet then refuse .alphabetOff 0

/-- The flags that are turned off behind a hyphen, already read. -/
def flagsOff : Reader Flags := do
  let c ← flagLetter [] .missingFlag
  let (flags, _) ← flagLetters checkOff ":" .unterminatedFlagsOff (← size) {} c
  return flags

/-- What a parenthesis opens. -/
inductive Opening where
  | capture (group : Nat)
  | plain
  | atomic
  | lookAhead (negated : Bool)
  | lookBehind (negated : Bool)
  | conditional (group : Nat)
  | flagged (on off : Flags)
  | complete (n : Node)
  | flags
  | comment

/-- The flags that stand behind a question mark, of which `c` is the first letter or the hyphen:
those of the whole pattern, or those of the group that follows. -/
def flagsOpening (c : CodePoint) : Reader Opening := do
  let hyphen := CodePoint.ofChar '-'
  let (on, stop) ←
    if c = hyphen then pure ({}, c)
    else flagLetters checkOn ")-:" .unterminatedFlags (← size) {} c
  if stop = CodePoint.ofChar ')' then
    modify fun s => { s with flags := s.flags.union on }
    return .flags
  if on.template then refuse (.templateFlag "on") 1
  let off ← if stop = hyphen then flagsOff else pure {}
  if off.template then refuse (.templateFlag "off") 1
  if on.meets off then refuse .flagOnAndOff 1
  return .flagged on off

/-- The kind of a group that starts with a question mark, already read. -/
def extension (first : Bool) (start : Nat) : Reader Opening := do
  match ← take with
  | none => refuse .unexpectedEnd 0
  | some t =>
    if t = "P" then
      if ← accept '<' then
        let t ← name '>'
        return .capture (← openGroup (some t))
      else if ← accept '=' then return .complete (← namedReference)
      else
        match ← take with
        | none => refuse .unexpectedEnd 0
        | some u => refuse (.unknownExtension ("P" ++ u)) (u.length + 2)
    else if t = ":" then return .plain
    else if t = "#" then
      if ← skipPast (.ofChar ')') (← size) then return .comment
      else refuseAt .unterminatedComment start
    else if t = ">" then return .atomic
    else if t = "=" then return .lookAhead false
    else if t = "!" then return .lookAhead true
    else if t = "<" then
      match ← take with
      | none => refuse .unexpectedEnd 0
      | some u =>
        if u = "=" then return .lookBehind false
        else if u = "!" then return .lookBehind true
        else refuse (.unknownExtension ("<" ++ u)) (u.length + 2)
    else if t = "(" then return .conditional (← condition)
    else
      match t with
      | [c] =>
        if (setFlag {} c).isNone && c ≠ CodePoint.ofChar '-' then
          refuse (.unknownExtension t) (t.length + 1)
        match ← flagsOpening c with
        | .flags => if first then return .flags else refuseAt .flagsNotAtStart start
        | kind => return kind
      | _ => refuse (.unknownExtension t) (t.length + 1)

def opening (first : Bool) (start : Nat) : Reader Opening := do
  if ← accept '?' then extension first start
  else return .capture (← openGroup none)

/-- Remembers, while a look behind is read, how many groups there were before the outermost one. -/
def enterLookBehind : Reader (Option Nat) := do
  let s ← get
  set { s with groupsBeforeLookBehind := some (s.groupsBeforeLookBehind.getD (s.groupCount + 1)) }
  return s.groupsBeforeLookBehind

def leaveLookBehind (outer : Option Nat) : Reader Unit :=
  modify fun s => { s with groupsBeforeLookBehind := outer }

def closing (start : Nat) : Reader Unit := do
  if !(← accept ')') then refuseAt .unterminatedGroup start

mutual

/-- Alternatives up to the end or a closing parenthesis. `first` holds at the start of the pattern,
and `verbose` where white space and comments are skipped. -/
def alternatives : Nat → Bool → Bool → Reader Node
  | 0, _, _ => refuse .unexpectedEnd 0
  | fuel + 1, first, verbose => do
    let parts ← sequence fuel first verbose []
    if ← accept '|' then
      -- only the first part of the pattern can have set flags for all of it
      let s ← get
      let verbose := if first then s.flags.verbose else verbose
      return .alt parts.node (← alternatives fuel false verbose)
    else return parts.node

/-- The parts of one alternative, after those already read. -/
def sequence : Nat → Bool → Bool → Parts → Reader Parts
  | 0, _, _, _ => refuse .unexpectedEnd 0
  | fuel + 1, first, verbose, parts => do
    match ← peek with
    | none => return parts
    | some [_, c] =>
      -- a backslash with the character after it
      advance
      sequence fuel first verbose (parts.add (← nodeEscape c))
    | some [c] =>
      if c = CodePoint.ofChar '|' || c = CodePoint.ofChar ')' then return parts
      advance
      if verbose && isPlainSpace c then sequence fuel first verbose parts
      else if verbose && c = CodePoint.ofChar '#' then
        let _ ← skipPast .lineFeed (← size)
        sequence fuel first verbose parts
      else if c = CodePoint.ofChar '[' then
        let start := (← position) - 1
        let negated ← accept '^'
        let items ← setItems start ((← get).rest.length + 2) []
        sequence fuel first verbose (parts.add (.char (.set negated items)))
      else if c = CodePoint.ofChar '.' then
        sequence fuel first verbose (parts.add (.char .any))
      else if c = CodePoint.ofChar '^' then
        sequence fuel first verbose (parts.add (.anchor .lineStart))
      else if c = CodePoint.ofChar '$' then
        sequence fuel first verbose (parts.add (.anchor .lineEnd))
      else if c = CodePoint.ofChar '(' then
        let start := (← position) - 1
        match ← opening (first && parts.isEmpty) start with
        | .comment => sequence fuel first verbose parts
        | .flags =>
          let s ← get
          sequence fuel first s.flags.verbose parts
        | .complete n => sequence fuel first verbose (parts.add n)
        | .plain =>
          -- a group counts as one part, even if there is a position or a repetition in it
          let body ← alternatives fuel false verbose
          closing start
          sequence fuel first verbose ((body, .other) :: parts)
        | .flagged on off =>
          let body ← alternatives fuel false ((verbose || on.verbose) && !off.verbose)
          closing start
          sequence fuel first verbose (parts.add (.flagged on off body))
        | .capture group =>
          let body ← alternatives fuel false verbose
          closing start
          closeGroup group body
          sequence fuel first verbose (parts.add (.capture group body))
        | .atomic =>
          let body ← alternatives fuel false verbose
          closing start
          sequence fuel first verbose (parts.add (.atomic body))
        | .conditional group =>
          let yes ← sequence fuel false verbose []
          let no ← if ← accept '|' then sequence fuel false verbose [] else pure []
          if (← peek) = some [CodePoint.ofChar '|'] then refuse .tooManyBranches 0
          closing start
          sequence fuel first verbose (parts.add (.conditional group yes.node no.node))
        | .lookAhead negated =>
          let body ← alternatives fuel false verbose
          closing start
          sequence fuel first verbose (parts.add (.lookAhead negated body))
        | .lookBehind negated =>
          let outer ← enterLookBehind
          let body ← alternatives fuel false verbose
          -- what follows may refer to the groups of the body again
          leaveLookBehind outer
          closing start
          sequence fuel first verbose (parts.add (← lookBehind negated body))
      else if (Text.ofString "*+?\x7b").contains c then
        sequence fuel first verbose (← quantify c parts)
      else sequence fuel first verbose (parts.add (.literal c))
    | some _ => return parts

end

def checkFlags : Reader Unit := do
  let flags := (← get).flags
  if flags.locale then throw .localeFlag
  if flags.ascii && flags.unicode then throw .asciiAndUnicodeFlags

/-- Conditions may ask for a group that is opened later, but not for one that never is. -/
def checkConditions : Reader Unit := do
  let s ← get
  match s.conditions.reverse.find? fun c => s.groupCount < c.1 with
  | some (group, position) => refuseAt (.invalidReference (Text.ofNat group)) position
  | none => return

def whole : Reader Node := do
  advance
  let verbose := (← get).flags.verbose
  -- of two calls in a row at least one takes a token, so the fuel does not run out
  let n ← alternatives (2 * (← size) + 2) true verbose
  checkFlags
  if (← peek).isSome then refuse .unbalancedParenthesis 0
  checkConditions
  match n.check (← get).flags.template with
  | .error e => throw e
  | .ok _ => return n

end Reader

/-- The tree of a pattern, with the flags that hold for it: the given ones and those that it sets
itself. -/
def read (limit : Limit) (names : CharacterNames) (source : Text) (flags : Flags) :
    Except PatternError (Node × Flags) := do
  let start : Scanner := ⟨limit, names, source, none, source, 0, flags, 0, [], [], none, []⟩
  let (n, s) ← Reader.whole.run start
  return (n, s.flags)

end Parselet.Pattern
