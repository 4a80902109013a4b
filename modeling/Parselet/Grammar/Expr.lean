import Parselet.Token.Arithmetic
import Parselet.Token.QuotedString
import Parselet.Pattern.Compile
import Parselet.Parser.Dynamic

/-!
Expressions that describe parsers before they are built. Building may fail, and it gives forwards to
the recursive ones.
-/

namespace Parselet

mutual

inductive Expr where
  | pure (v : Value)
  | fail (message : Text)
  | eof
  | digit
  | letter
  | alphanumeric
  | whitespace
  | integer
  | skipWhitespace
  | character (s : Text)
  | string (s : Text)
  | anycase (s : Text)
  | satisfy (accepts : CodePoint → Bool) (description : Text)
  | regex (source : Text) (flags : Pattern.Flags) (flagsAgain : Bool)
    (names : Pattern.CharacterNames := fun _ => none)
  | compiled (m : Matcher)
  | many (of : Expr)
  | many1 (of : Expr)
  | optional (of : Expr)
  | lookahead (of : Expr)
  | inverted (of : Expr)
  | seq (of : List Expr)
  | oneOf (of : List Expr)
  | between (opening of closing : Expr)
  | sepBy (of separator : Expr)
  | sepBy1 (of separator : Expr)
  | map (of : Expr) (f : Limit → Value → Except Fault Value)
  | flatMap (of : Expr) (next : Continuation)
  | named (of : Expr) (name : Text)
  | orElse (a b : Expr)
  | andThen (a b : Expr)
  | followedBy (a b : Expr)
  | sign
  | signedInteger
  | decimalNumber
  | unicodeEscape
  | identifier
  | arithmetic
  | quotedString (quote escape : Text) (escapes : List (Text × Text))
  | lexeme (of : Expr)
  | commaList (of : Expr)
  | symbol (s : Text)
  | custom (f : Text → Except Fault Result) (name : Text)
  | ref (id : Text)
  | fix (id name : Text) (of : Expr)

/-- How the value of one parser determines the next. -/
inductive Continuation where
  | pure
  | fail
  | character
  | string
  | anycase
  | repeated (s : Text)
  | const (e : Expr)
  | count (e : Expr)
  | cases (keys : List Text) (branches : List Expr) (other : Expr)

end

/-- What a name is bound to. Only a forward itself can be defined, not a parser made from it. -/
structure Binding where
  parser : Parser
  forward? : Option Forward

abbrev Bindings := List (Text × Binding)

def Binding.ofForward (f : Forward) : Binding := ⟨Parser.forward f, some f⟩

/-- Flags are refused for a pattern that has been compiled before. -/
def compileRegex (limit : Limit) (names : Pattern.CharacterNames) (source : Text)
    (flags : Pattern.Flags) (flagsAgain : Bool) : Except Fault Parser :=
  match Pattern.compile limit names source flags with
  | .error e => .error (.pattern e)
  | .ok pattern =>
    if flagsAgain then .error (.pattern .flagsOfCompiled) else .ok (Parser.regex pattern.matcher)

/-- Both special characters of a quoted string must be single. -/
def quotedStringOf (quote escape : Text) (escapes : Parser.Escapes) : Except Fault Parser :=
  match quote, escape with
  | [q], [e] => .ok (Parser.quotedString q e escapes)
  | _, _ => .error .notOneCharacter

mutual

def Expr.build (limit : Limit) (env : Bindings) : Expr → Build Parser
  | .pure v => Parser.pure limit v
  | .fail message => return Parser.fail message
  | .eof => return Parser.eof
  | .digit => return Parser.digit
  | .letter => return Parser.letter
  | .alphanumeric => return Parser.alphanumeric
  | .whitespace => return Parser.whitespace
  | .integer => return Parser.integer
  | .skipWhitespace => return Parser.skipWhitespace
  | .character s => Parser.character? s
  | .string s => return Parser.string s
  | .anycase s => return Parser.anycase s
  | .satisfy accepts description => return Parser.satisfy accepts description
  | .regex source flags flagsAgain names => compileRegex limit names source flags flagsAgain
  | .compiled m => return Parser.regex m
  | .many e => return (← e.build limit env).many
  | .many1 e => return (← e.build limit env).many1
  | .optional e => return (← e.build limit env).optional
  | .lookahead e => return (← e.build limit env).lookahead
  | .inverted e => return (← e.build limit env).inverted
  | .seq es => do Parser.atLeastTwo Parser.seq (← Expr.buildAll limit env es)
  | .oneOf es => do Parser.atLeastTwo Parser.oneOf (← Expr.buildAll limit env es)
  | .between opening e closing => do
    let o ← opening.build limit env
    let p ← e.build limit env
    return Parser.between o p (← closing.build limit env)
  | .sepBy e separator => do
    let p ← e.build limit env
    return p.sepBy (← separator.build limit env)
  | .sepBy1 e separator => do
    let p ← e.build limit env
    return p.sepBy1 (← separator.build limit env)
  | .map e f => return (← e.build limit env).map f
  | .flatMap e next => do
    let p ← e.build limit env
    return p.flatMap (← next.build limit env)
  | .named e name => return (← e.build limit env).named name
  | .orElse a b => do
    let p ← a.build limit env
    return p.orElse (← b.build limit env)
  | .andThen a b => do
    let p ← a.build limit env
    return p.andThen (← b.build limit env)
  | .followedBy a b => do
    let p ← a.build limit env
    return p.followedBy (← b.build limit env)
  | .sign => return Parser.sign
  | .signedInteger => return Parser.signedInteger
  | .decimalNumber => return Parser.decimalNumber
  | .unicodeEscape => return Parser.unicodeEscape
  | .identifier => return Parser.identifier
  | .arithmetic => Parser.arithmetic
  | .quotedString quote escape escapes => quotedStringOf quote escape escapes
  | .lexeme e => return (← e.build limit env).lexeme
  | .commaList e => return (← e.build limit env).commaList
  | .symbol s => return Parser.symbol s
  | .custom f name => return Parser.custom f name
  | .ref id =>
    match env.lookup id with
    | some b => return b.parser
    | none => throw (.unboundName id)
  | .fix id name e => do
    let (f, store) := (← get).allocate name
    set store
    let p ← e.build limit ((id, Binding.ofForward f) :: env)
    set (← (← get).define f p)
    return Parser.forward f

def Expr.buildAll (limit : Limit) (env : Bindings) : List Expr → Build (List Parser)
  | [] => return []
  | e :: es => do
    let p ← e.build limit env
    return p :: (← Expr.buildAll limit env es)

/-- The parsers in a continuation are built once, before any value is known. -/
def Continuation.build (limit : Limit) (env : Bindings) :
    Continuation → Build (Limit → Value → Except Fault Parser)
  | .pure => return Parser.pure
  | .fail => return Parser.failWith
  | .character => return Parser.characterOfValue
  | .string => return Parser.stringOfValue
  | .anycase => return fun _ v => Parser.anycaseOfValue v
  | .repeated s => return Parser.repeatedString s
  | .const e => do
    let p ← e.build limit env
    return fun _ _ => .ok p
  | .count e => do
    let p ← e.build limit env
    return p.replicated
  | .cases keys branches other => do
    let ps ← Expr.buildAll limit env branches
    let p ← other.build limit env
    return fun _ v => .ok (Parser.choose keys ps p v)

end

/-- Whether an expression gives a forward itself: a recursive expression, or a name bound to one. -/
def Expr.isForward (env : Bindings) : Expr → Bool
  | .ref id => ((env.lookup id).bind Binding.forward?).isSome
  | .fix _ _ _ => true
  | _ => false

/-- The binding of a name to a parser that an expression has been built to. -/
def Expr.binding (env : Bindings) (e : Expr) (p : Parser) : Binding :=
  match e.isForward env, p.body with
  | true, .forward f => ⟨p, some f⟩
  | _, _ => ⟨p, none⟩

end Parselet
