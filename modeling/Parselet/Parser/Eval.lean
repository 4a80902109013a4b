import Parselet.Parser.Step

/-!
Running parsers. A run goes down to a given depth of calls inside calls; with debugging on, every
call is logged before and after.
-/

namespace Parselet

/-- The circumstances of a run. `depth` is how deep calls may be nested. -/
structure Settings where
  limit : Limit := Limit.standard
  debug : Bool := false
  depth : Nat := 1000000

/-- Logs a call around `run`. A result that cannot be written ends the run. -/
def Settings.visit (s : Settings) (name src : Text) (run : Run Result) : Run Result :=
  if s.debug then do
    Run.emit (.enter name src)
    let result ← run
    let _ ← Run.ofExcept (result.written? s.limit)
    Run.emit (.leave name result)
    return result
  else run

/-- What a body does if `call` runs the parsers in it. -/
def Body.eval (store : Store) (limit : Limit) (call : Parser → Step) : Body → Step
  | .pure v => Step.pure v
  | .fail message => Step.fail message
  | .eof => Step.eof
  | .character c => Step.character c
  | .satisfy accepts description => Step.satisfy accepts description
  | .string s => Step.string s
  | .anycase s => Step.anycase s
  | .regex m => Step.regex m
  | .map p f => Step.map (call p) (f limit)
  | .flatMap p next => Step.flatMap (call p) fun v => (next limit v).map call
  | .orElse p q => Step.orElse (call p) (call q)
  | .many p => Step.many (call p)
  | .nonempty p => Step.nonempty (call p)
  | .optional p => Step.optional (call p)
  | .sepBy content separator => Step.sepBy (call content) (call separator)
  | .seq ps => Step.seq (ps.map call)
  | .oneOf ps => Step.oneOf (ps.map call)
  | .lookahead p => Step.lookahead (call p)
  | .inverted p => Step.inverted limit (call p)
  | .forward f =>
    match store.target? f with
    | some p => call p
    | none => Step.raise (.undefinedForward f.name)
  | .custom f => fun src => Run.ofExcept (f src)

namespace Parser

/-- Runs a parser with calls nested at most as deep as the number says. -/
def runTo (store : Store) (s : Settings) : Nat → Parser → Step
  | 0, _, _ => Run.unfinished
  | depth + 1, p, src =>
    s.visit p.name src (p.body.eval store s.limit (runTo store s depth) src)

/-- The result of a parser on a text. -/
def parse (store : Store) (s : Settings) (p : Parser) : Step := p.runTo store s s.depth

/-- The value of a parser on a text; a failure is turned into an error. -/
def parseValue (store : Store) (s : Settings) (p : Parser) (src : Text) :
    Run (Except ParseError Value) := do
  return (← p.parse store s src).toExcept

end Parser

end Parselet
