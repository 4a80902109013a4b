import Parselet.Parser.Eval
import Parselet.Grammar.Expr

/-!
Sessions: a sequence of commands that make and define forwards, bind names to parsers and run
parsers. A command that fails leaves the session as it was.
-/

namespace Parselet

structure Session where
  store : Store
  bindings : Bindings

/-- What to do with a parser once it is built. -/
inductive Query where
  | parse (src : Text)
  | parseAll (srcs : List Text)
  | parseValue (src : Text)
  | name
  | trace (src : Text)

inductive Command where
  | forward (id name : Text)
  | define (id : Text) (e : Expr)
  | bind (id : Text) (e : Expr)
  | query (e : Expr) (q : Query)

inductive Answer where
  | named (name : Text)
  | defined
  | result (r : Ending Result)
  | results (rs : List (Ending Result))
  | value (r : Ending (Except ParseError Value))
  | shown (name written : Text)
  | traced (r : Ending Result) (log : List Text)
  | refused (fault : Fault)

namespace Query

def answer (store : Store) (limit : Limit) (p : Parser) : Query → Answer
  | parse src => .result (p.parse store { limit } src).ending
  | parseAll srcs => .results (srcs.map fun src => (p.parse store { limit } src).ending)
  | parseValue src => .value (p.parseValue store { limit } src).ending
  | name => .shown p.name p.written
  | trace src =>
    let run := p.parse store { limit, debug := true } src
    .traced run.ending (run.log.map Event.line)

end Query

namespace Session

def empty : Session := ⟨Store.empty, []⟩

def bindName (s : Session) (id : Text) (b : Binding) : Session :=
  { s with bindings := (id, b) :: s.bindings }

/-- Builds an expression in the session; the new store holds its forwards. -/
def build (s : Session) (limit : Limit) (e : Expr) : Except Fault (Parser × Store) :=
  (e.build limit s.bindings).run s.store

/-- The forward that a name is bound to. -/
def forward (s : Session) (id : Text) : Except Fault Forward :=
  match s.bindings.lookup id with
  | none => .error (.unboundName id)
  | some b =>
    match b.forward? with
    | none => .error .notAForward
    | some f => .ok f

/-- Defines the forward bound to `id` by the parser that `e` describes. -/
def define (s : Session) (limit : Limit) (id : Text) (e : Expr) : Except Fault Session := do
  let (p, store) ← s.build limit e
  let store ← store.define (← s.forward id) p
  return { s with store }

/-- Runs of parsers change nothing, so what a query builds is not kept. -/
def step (limit : Limit) (s : Session) : Command → Session × Answer
  | .forward id name =>
    let (f, store) := s.store.allocate name
    (bindName { s with store } id (Binding.ofForward f), .named name)
  | .define id e =>
    match s.define limit id e with
    | .error fault => (s, .refused fault)
    | .ok s' => (s', .defined)
  | .bind id e =>
    match s.build limit e with
    | .error fault => (s, .refused fault)
    | .ok (p, store) => (bindName { s with store } id (e.binding s.bindings p), .named p.name)
  | .query e q =>
    match s.build limit e with
    | .error fault => (s, .refused fault)
    | .ok (p, store) => (s, q.answer store limit p)

/-- The answers to a sequence of commands. -/
def answers (limit : Limit) (s : Session) : List Command → List Answer
  | [] => []
  | c :: cs =>
    let (s', a) := s.step limit c
    a :: answers limit s' cs

end Session

end Parselet
