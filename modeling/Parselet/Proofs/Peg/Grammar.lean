import Mathlib.Data.List.Infix
import Mathlib.Data.Option.Defs
import Parselet.Parser.Combinator

/-!
Parsing expression grammars, and which expressions parsers translate to. The rules of a grammar are
numbered as the forwards of a store are.
-/

namespace Parselet

inductive Peg where
  | empty
  | char (accepts : CodePoint → Bool)
  | rule (i : Nat)
  | seq (a b : Peg)
  | choice (a b : Peg)
  | star (a : Peg)
  | not (a : Peg)

namespace Peg

/-- On the input, the expression matches and leaves a rest, or it fails, which is `none`. -/
inductive Derives (rules : Nat → Option Peg) : Peg → Text → Option Text → Prop
  | empty {src : Text} : Derives rules .empty src (some src)
  | char_match {accepts : CodePoint → Bool} {c : CodePoint} {t : Text} : accepts c = true →
      Derives rules (.char accepts) (c :: t) (some t)
  | char_other {accepts : CodePoint → Bool} {c : CodePoint} {t : Text} : accepts c = false →
      Derives rules (.char accepts) (c :: t) none
  | char_end {accepts : CodePoint → Bool} : Derives rules (.char accepts) [] none
  | rule {i : Nat} {e : Peg} {src : Text} {o : Option Text} : rules i = some e →
      Derives rules e src o → Derives rules (.rule i) src o
  | seq_next {a b : Peg} {src mid : Text} {o : Option Text} : Derives rules a src (some mid) →
      Derives rules b mid o → Derives rules (.seq a b) src o
  | seq_fail {a b : Peg} {src : Text} : Derives rules a src none → Derives rules (.seq a b) src none
  | choice_first {a b : Peg} {src rest : Text} : Derives rules a src (some rest) →
      Derives rules (.choice a b) src (some rest)
  | choice_second {a b : Peg} {src : Text} {o : Option Text} : Derives rules a src none →
      Derives rules b src o → Derives rules (.choice a b) src o
  | star_stop {a : Peg} {src : Text} : Derives rules a src none →
      Derives rules (.star a) src (some src)
  | star_next {a : Peg} {src mid rest : Text} : Derives rules a src (some mid) →
      Derives rules (.star a) mid (some rest) → Derives rules (.star a) src (some rest)
  | not_match {a : Peg} {src : Text} : Derives rules a src none →
      Derives rules (.not a) src (some src)
  | not_fail {a : Peg} {src rest : Text} : Derives rules a src (some rest) →
      Derives rules (.not a) src none

/-- No expression that is repeated in `e` matches without consuming anything. -/
def Productive (rules : Nat → Option Peg) : Peg → Prop
  | empty => True
  | char _ => True
  | rule _ => True
  | seq a b => a.Productive rules ∧ b.Productive rules
  | choice a b => a.Productive rules ∧ b.Productive rules
  | star a => a.Productive rules ∧ ∀ src, ¬ Derives rules a src (some src)
  | not a => a.Productive rules

/-! Expressions made from others. -/

def any : Peg := char fun _ => true

def exactly (c : CodePoint) : Peg := char (· = c)

def plus (e : Peg) : Peg := seq e (star e)

def optional (e : Peg) : Peg := choice e empty

def and (e : Peg) : Peg := not (not e)

/-- At least one expression, with an operator between neighbours that groups to the right. -/
def joinAll (op : Peg → Peg → Peg) : Peg → List Peg → Peg
  | e, [] => e
  | e, e' :: es => op e (joinAll op e' es)

/-- Expressions one after another. -/
def seqAll : Peg → List Peg → Peg := joinAll seq

/-- The first expression that matches. -/
def choiceAll : Peg → List Peg → Peg := joinAll choice

def literal : Text → Peg
  | [] => empty
  | c :: t => seqAll (exactly c) (t.map exactly)

/-- At least one content, with separators in between. -/
def separated (content separator : Peg) : Peg := seq content (star (seq separator content))

/-- How parsers are translated. The function of a mapped parser has a value everywhere. -/
inductive Translates : Parser → Peg → Prop
  | eof : Translates Parser.eof (not any)
  | character (c : CodePoint) : Translates (Parser.character c) (exactly c)
  | satisfy (accepts : CodePoint → Bool) (description : Text) :
      Translates (Parser.satisfy accepts description) (char accepts)
  | string (t : Text) : Translates (Parser.string t) (literal t)
  | seq {x : Parser × Peg} {xs : List (Parser × Peg)} : (∀ y ∈ x :: xs, Translates y.1 y.2) →
      Translates (Parser.seq (x.1 :: xs.map Prod.fst)) (seqAll x.2 (xs.map Prod.snd))
  | oneOf {x : Parser × Peg} {xs : List (Parser × Peg)} : (∀ y ∈ x :: xs, Translates y.1 y.2) →
      Translates (Parser.oneOf (x.1 :: xs.map Prod.fst)) (choiceAll x.2 (xs.map Prod.snd))
  | andThen {p q : Parser} {a b : Peg} : Translates p a → Translates q b →
      Translates (p.andThen q) (Peg.seq a b)
  | followedBy {p q : Parser} {a b : Peg} : Translates p a → Translates q b →
      Translates (p.followedBy q) (Peg.seq a b)
  | between {opening p closing : Parser} {a b c : Peg} : Translates opening a → Translates p b →
      Translates closing c → Translates (Parser.between opening p closing) (Peg.seq (Peg.seq a b) c)
  | orElse {p q : Parser} {a b : Peg} : Translates p a → Translates q b →
      Translates (p.orElse q) (choice a b)
  | many {p : Parser} {a : Peg} : Translates p a → Translates p.many (star a)
  | many1 {p : Parser} {a : Peg} : Translates p a → Translates p.many1 (plus a)
  | optional {p : Parser} {a : Peg} : Translates p a → Translates p.optional (Peg.optional a)
  | lookahead {p : Parser} {a : Peg} : Translates p a → Translates p.lookahead (and a)
  | inverted {p : Parser} {a : Peg} : Translates p a → Translates p.inverted (not a)
  | sepBy {p q : Parser} {a b : Peg} : Translates p a → Translates q b →
      Translates (p.sepBy q) (Peg.optional (separated a b))
  | sepBy1 {p q : Parser} {a b : Peg} : Translates p a → Translates q b →
      Translates (p.sepBy1 q) (separated a b)
  | named {p : Parser} {a : Peg} (name : Text) : Translates p a → Translates (p.named name) a
  | map {p : Parser} {a : Peg} {f : Value.Function} : (∀ v, ∃ w, f none v = .ok w) →
      Translates p a → Translates (p.map f) a
  | forward (f : Forward) : Translates (Parser.forward f) (rule f.id)

/-- The rules are the translations of the parsers that forwards stand for. -/
def TranslatesStore (store : Store) (rules : Nat → Option Peg) : Prop :=
  ∀ f : Forward, Option.Rel Translates (store.target? f) (rules f.id)

end Peg

end Parselet
