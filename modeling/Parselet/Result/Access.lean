import Parselet.Value.Function
import Parselet.Result.Basic

/-!
Reading the parts of a result by name. A part that belongs to the other variant cannot be read, and
no part can be changed.
-/

namespace Parselet

inductive Field where
  | value
  | rest
  | message
  | src
  deriving DecidableEq, Repr

/-- Why a part of a result cannot be read or changed. -/
inductive AccessError where
  | noMessage
  | noValue (message : Text)
  | noRest (message : Text)
  | noPart (variant part : Text)
  | cannotAssign (field : Text)
  | cannotDelete (field : Text)
  deriving DecidableEq, Repr

def AccessError.reason : AccessError → Text
  | noMessage => "A successful result has no error message."
  | noValue message => "A failed result has no value: " ++ message
  | noRest message => "A failed result has no remaining input: " ++ message
  | noPart variant part =>
    "'" ++ variant ++ "' object has no attribute '" ++ part ++ "'"
  | cannotAssign field => "cannot assign to field " ++ Text.quoted field
  | cannotDelete field => "cannot delete field " ++ Text.quoted field

namespace Result

def get : Field → Result → Except AccessError Value
  | .value, success v _ => .ok v
  | .rest, success _ rest => .ok (.text rest)
  | .message, success _ _ => .error .noMessage
  | .src, success _ _ => .error (.noPart "Success" "src")
  | .value, failure m _ => .error (.noValue m)
  | .rest, failure m _ => .error (.noRest m)
  | .message, failure m _ => .ok (.text m)
  | .src, failure _ src => .ok (optionalText src)

/-- The error that a failure stands for. -/
def error : Result → Except AccessError ParseError
  | success _ _ => .error (.noPart "Success" "error")
  | failure m src => .ok ⟨m, src⟩

/-- The operations of a result, by the names under which it can be asked for them. -/
def operations : Result → List Text
  | success _ _ => ["is_success", "is_failure", "map"]
  | failure _ _ => ["is_success", "is_failure", "map", "error"]

end Result

/-- The part of a result that a name stands for. -/
def Field.ofName? (name : Text) : Option Field :=
  if name = "value" then some .value
  else if name = "remaining" then some .rest
  else if name = "message" then some .message
  else if name = "src" then some .src
  else none

/-- A question to a result. -/
inductive Request where
  | isSuccess
  | isFailure
  | truth
  | get (field : Field)
  | getOrDefault (name : Text)
  | has (name : Text)
  | assign (name : Text)
  | delete (name : Text)
  | written
  | map (f : Value.Function)
  | error

inductive Reply where
  | flag (b : Bool)
  | value (v : Value)
  | result (r : Result)
  | parseError (e : ParseError)
  | refused (e : AccessError)
  | raised (fault : Fault)

namespace Result

def defaultValue : Value := .text "default"

/-- The value of the part called `name`, if `r` has it. -/
def part? (r : Result) (name : Text) : Option Value :=
  match Field.ofName? name with
  | none => none
  | some field => (r.get field).toOption

/-- The reply to a request. -/
def reply (limit : Limit) (r : Result) : Request → Reply
  | .isSuccess => .flag r.isSuccess
  | .isFailure => .flag !r.isSuccess
  | .truth => .flag r.isSuccess
  | .get field =>
    match r.get field with
    | .ok v => .value v
    | .error e => .refused e
  | .getOrDefault name => .value ((r.part? name).getD defaultValue)
  | .has name => .flag ((r.part? name).isSome || r.operations.contains name)
  | .assign name => .refused (.cannotAssign name)
  | .delete name => .refused (.cannotDelete name)
  | .written =>
    match r.written? limit with
    | .ok t => .value (.text t)
    | .error fault => .raised fault
  | .map f =>
    match r.map (f limit) with
    | .ok r' => .result r'
    | .error fault => .raised fault
  | .error =>
    match r.error with
    | .ok e => .parseError e
    | .error e => .refused e

/-- The replies to a sequence of requests. A mapped result takes the place of the one it came
from. -/
def replies (limit : Limit) (r : Result) : List Request → List Reply
  | [] => []
  | q :: qs =>
    match r.reply limit q with
    | .result r' => .result r' :: replies limit r' qs
    | a => a :: replies limit r qs

end Result

end Parselet
