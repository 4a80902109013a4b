import Parselet.Proofs.Parser.Depth
import Parselet.Proofs.Value.Fits

/-!
Runs with debugging on. A call is logged around its run, so the run ends alike unless a result that
is to be logged cannot be written.
-/

namespace Parselet

open Run

/-- A run stops because an integer is too long to be written. -/
def Limit.StopsWriting (limit : Limit) (stop : Option Fault) : Prop :=
  ∃ bound, limit = some bound ∧ stop = some (.tooLongToWrite bound)

/-- A call with its log lines ends as the call does once its result can be written. -/
theorem Settings.ending_visit {s : Settings} (h : s.debug = true) (name src : Text)
    (run : Run Result) :
    (s.visit name src run).ending =
      (run >>= fun r => Run.ofExcept (r.written? s.limit) >>= fun _ => pure r).ending := by
  rw [visit, if_pos h, ending_bind_of_value (a := ()) rfl]
  cases hrun : run.ending with
  | value r =>
    rw [ending_bind_of_value hrun, ending_bind_of_value hrun]
    cases hwritten : r.written? s.limit <;> rfl
  | raised fault => rw [ending_bind_of_raised hrun, ending_bind_of_raised hrun]
  | unfinished => rw [ending_bind_of_unfinished hrun, ending_bind_of_unfinished hrun]

namespace Parser

variable {store : Store} {limit : Limit} {d : Nat} {p : Parser} {src : Text}

/-- The run with debugging on ends as the run without, unless there is a limit and a result to be
logged holds an integer beyond it. -/
theorem stopsOrAlike_debug (store : Store) (limit : Limit) (d : Nat) (p : Parser) (src : Text) :
    StopsOrAlike limit.StopsWriting fun plain => runTo store { limit, debug := !plain } d p src := by
  have hstops := stopsOrAlike_compositional limit.StopsWriting
  induction d generalizing p src with
  | zero => exact .inr rfl
  | succ d ih =>
    have hvisit := Settings.ending_visit (s := { limit, debug := true }) rfl p.name src
    have hcalls : StopsOrAlike limit.StopsWriting fun plain =>
        p.body.eval store limit (runTo store { limit, debug := !plain } d) src :=
      hstops.eval ih p.body src
    rcases hcalls with ⟨stop, hstop, hbody⟩ | halike
    · exact .inl ⟨stop, hstop, (hvisit _).trans (ending_bind_of_stopped hbody)⟩
    · cases hbody : (p.body.eval store limit (runTo store { limit, debug := true } d) src).ending with
      | value r =>
        have hlogged := (hvisit _).trans (ending_bind_of_value hbody)
        by_cases hfits : r.Fits limit
        · obtain ⟨t, ht⟩ := Result.written?_of_fits hfits
          rw [ht] at hlogged
          exact .inr (hlogged.trans (hbody.symm.trans halike))
        · obtain ⟨bound, hlimit, herror⟩ := Result.written?_of_not_fits hfits
          rw [herror] at hlogged
          exact .inl ⟨_, ⟨bound, hlimit, rfl⟩, hlogged⟩
      | raised fault =>
        exact .inr (((hvisit _).trans (ending_bind_of_raised hbody)).trans
          (hbody.symm.trans halike))
      | unfinished =>
        exact .inr (((hvisit _).trans (ending_bind_of_unfinished hbody)).trans
          (hbody.symm.trans halike))

end Parser

end Parselet
