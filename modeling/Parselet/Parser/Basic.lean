import Parselet.Run
import Parselet.Matcher

/-!
Parsers as data: a name for logs and messages, and a body that says what to do. Recursion goes
through forwards, which stand for a parser that is put into a store later on.
-/

namespace Parselet

/-- A place in the store, with the name under which it was made. -/
structure Forward where
  id : Nat
  name : Text
  deriving DecidableEq, Repr

mutual

inductive Parser where
  | mk (name : Text) (body : Body)

/-- What a parser does. A function on values is given the limit of the run, under which it may have
to write or read an integer. -/
inductive Body where
  | pure (v : Value)
  | fail (message : Text)
  | eof
  | character (c : CodePoint)
  | satisfy (accepts : CodePoint → Bool) (description : Text)
  | string (s : Text)
  | anycase (s : Text)
  | regex (m : Matcher)
  | map (p : Parser) (f : Limit → Value → Except Fault Value)
  | flatMap (p : Parser) (next : Limit → Value → Except Fault Parser)
  | orElse (p q : Parser)
  | many (p : Parser)
  | nonempty (p : Parser)
  | optional (p : Parser)
  | sepBy (content separator : Parser)
  | seq (ps : List Parser)
  | oneOf (ps : List Parser)
  | lookahead (p : Parser)
  | inverted (p : Parser)
  | forward (f : Forward)
  | custom (f : Text → Except Fault Result)

end

namespace Parser

def name : Parser → Text
  | mk name _ => name

def body : Parser → Body
  | mk _ body => body

/-- The same parser under another name. -/
def named (p : Parser) (name : Text) : Parser := mk name p.body

/-- How a parser is shown. -/
def written (p : Parser) : Text := "<Parser " ++ p.name ++ ">"

end Parser

/-- The parsers that forwards stand for, by number; `none` until one is defined. -/
structure Store where
  targets : List (Option Parser)

namespace Store

def empty : Store := ⟨[]⟩

def target? (s : Store) (f : Forward) : Option Parser := s.targets[f.id]?.join

/-- Makes a forward that is not defined yet. -/
def allocate (s : Store) (name : Text) : Forward × Store :=
  (⟨s.targets.length, name⟩, ⟨s.targets ++ [none]⟩)

/-- A forward is defined only once. -/
def define (s : Store) (f : Forward) (p : Parser) : Except Fault Store :=
  match s.target? f with
  | some _ => .error (.redefinedForward f.name)
  | none => .ok ⟨s.targets.set f.id (some p)⟩

end Store

/-- Building parsers may make and define forwards. -/
abbrev Build := StateT Store (Except Fault)

end Parselet
