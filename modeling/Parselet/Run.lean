import Parselet.Result.Basic

/-!
Runs: how a computation ended, together with the calls it logged on the way.
-/

namespace Parselet

/-- A run has a value, is given up with a fault, or was cut off at the greatest allowed depth. -/
inductive Ending (α : Type) where
  | value (a : α)
  | raised (fault : Fault)
  | unfinished
  deriving DecidableEq, Repr

/-- The two moments of a call that a log records. -/
inductive Event where
  | enter (name src : Text)
  | leave (name : Text) (result : Result)
  deriving DecidableEq, Repr

def Event.line : Event → Text
  | enter name src => "trying " ++ name ++ " on " ++ Text.quoted src.excerpt
  | leave name result => name ++ " -> " ++ result.written

structure Run (α : Type) where
  ending : Ending α
  log : List Event
  deriving DecidableEq, Repr

namespace Run

def ofExcept : Except Fault α → Run α
  | .ok a => ⟨.value a, []⟩
  | .error fault => ⟨.raised fault, []⟩

def raise (fault : Fault) : Run α := ⟨.raised fault, []⟩

def unfinished : Run α := ⟨.unfinished, []⟩

def emit (event : Event) : Run Unit := ⟨.value (), [event]⟩

/-- What was logged before a computation ended early stays in the log. -/
@[inline] def bind (r : Run α) (next : α → Run β) : Run β :=
  match r.ending with
  | .value a =>
    let s := next a
    ⟨s.ending, r.log ++ s.log⟩
  | .raised fault => ⟨.raised fault, r.log⟩
  | .unfinished => ⟨.unfinished, r.log⟩

instance : Monad Run where
  pure a := ⟨.value a, []⟩
  bind := bind

end Run

end Parselet
