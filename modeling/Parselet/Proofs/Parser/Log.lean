import Parselet.Parser.Combinator
import Parselet.Proofs.Parser.Active
import Parselet.Proofs.Parser.Debug

/-!
What a run with debugging on logs. Every call that comes back closes the line that it opened, after
the lines of the calls that its body makes. A run that is given up leaves open the lines of the
calls that are active at that moment.
-/

namespace Parselet

open Run

/-- The lines that are open after a log, latest first, if those in the list were open before it. A
line that closes a call must be that of the latest one that is open. -/
def openLines : List (Text × Text) → List Event → Option (List (Text × Text))
  | opened, [] => some opened
  | opened, .enter name src :: log => openLines ((name, src) :: opened) log
  | [], .leave _ _ :: _ => none
  | (name, _) :: opened, .leave name' _ :: log =>
    if name = name' then openLines opened log else none

/-- The line that opens a call. -/
def Call.line (c : Parser × Text) : Text × Text := (c.1.name, c.2)

namespace Store

variable {store : Store} {p q : Parser} {src mid : Text} {fault : Fault} {calls : List Call}
  {r : Result} {log log' : List Event} {stack : List (Parser × Text)}

/-- What is logged for calls that come back one after another. Each has a line that opens it, then
the lines of the calls that its body makes, in order, and a line with the result that the body has
after them. -/
inductive ClosedLog (store : Store) : List Call → List Event → Prop
  | nil : ClosedLog store [] []
  | cons {p : Parser} {src : Text} {r : Result} {inner calls : List Call} {log rest : List Event} :
      store.BodyPerforms p src inner (.value r) → ClosedLog store inner log →
      ClosedLog store calls rest →
      ClosedLog store (⟨p, src, .value r⟩ :: calls)
        (.enter p.name src :: (log ++ .leave p.name r :: rest))

/-- What is logged for a run of `p` on `src` in which the fault is raised while the calls in the
list are active, outermost first: each of these has a line that opens it, and what its body called
before has come back. -/
inductive OpenLog (store : Store) (fault : Fault) :
    Parser → Text → List (Parser × Text) → List Event → Prop
  | itself {p : Parser} {src : Text} {calls : List Call} {log : List Event} :
      store.BodyPerforms p src calls (.raised fault) → store.ClosedLog calls log →
      OpenLog store fault p src [(p, src)] (.enter p.name src :: log)
  | within {p q : Parser} {src mid : Text} {calls : List Call} {log rest : List Event}
      {stack : List (Parser × Text)} :
      store.BodyPerforms p src (calls ++ [⟨q, mid, .raised fault⟩]) (.raised fault) →
      store.ClosedLog calls log → OpenLog store fault q mid stack rest →
      OpenLog store fault p src ((p, src) :: stack) (.enter p.name src :: (log ++ rest))

/-! ## Only one log -/

/-- Whoever is in such a list of calls has the result that it says. -/
theorem ClosedLog.cameBack (h : store.ClosedLog calls log) : ∀ c ∈ calls, store.CameBack c := by
  induction h with
  | nil => simp
  | cons hperforms _ _ ihinner ihcalls =>
    refine List.forall_mem_cons.2 ⟨⟨_, rfl, Parser.endsIn_iff.2 ?_⟩, ihcalls⟩
    exact Performs.run_ending hperforms (answered_of_cameBack ihinner)

theorem ClosedLog.unique (h : store.ClosedLog calls log) (h' : store.ClosedLog calls log') :
    log = log' := by
  induction h generalizing log' with
  | nil =>
    cases h'
    rfl
  | cons hperforms hinner _ ihinner ihcalls =>
    cases h' with
    | cons hperforms' hinner' hcalls' =>
      -- the body makes the same calls both times, for they are answered alike
      obtain rfl := hperforms.unique hperforms' (answered_of_cameBack hinner.cameBack)
        (answered_of_cameBack hinner'.cameBack)
      rw [ihinner hinner', ihcalls hcalls']

theorem ClosedLog.append {calls' : List Call} (h : store.ClosedLog calls log)
    (h' : store.ClosedLog calls' log') : store.ClosedLog (calls ++ calls') (log ++ log') := by
  induction h with
  | nil => exact h'
  | cons hperforms hinner _ _ ihcalls =>
    simp only [List.cons_append, List.append_assoc]
    exact .cons hperforms hinner ihcalls

theorem closedLog_single (hperforms : store.BodyPerforms p src calls (.value r))
    (hcalls : store.ClosedLog calls log) :
    store.ClosedLog [⟨p, src, .value r⟩] (.enter p.name src :: (log ++ [.leave p.name r])) :=
  .cons hperforms hcalls .nil

/-- There is such a log only for the result that the parser has. -/
theorem closedLog_single_iff (h : store.ClosedLog [⟨p, src, .value r⟩] log) (r' : Result)
    (log' : List Event) :
    store.ClosedLog [⟨p, src, .value r'⟩] log' ↔ r' = r ∧ log' = log := by
  constructor
  · intro h'
    have hends := answered_of_cameBack h.cameBack _ (List.mem_singleton_self _)
    have hends' := answered_of_cameBack h'.cameBack _ (List.mem_singleton_self _)
    obtain rfl : r' = r := Ending.value.inj (hends'.symm.trans hends)
    exact ⟨rfl, h'.unique h⟩
  · rintro ⟨rfl, rfl⟩
    exact h

theorem OpenLog.active (h : store.OpenLog fault p src stack log) :
    store.Active fault p src stack := by
  induction h with
  | itself hperforms hcalls => exact .itself hperforms hcalls.cameBack
  | within hperforms hcalls _ ih => exact .within hperforms hcalls.cameBack ih

theorem OpenLog.unique (h : store.OpenLog fault p src stack log)
    (h' : store.OpenLog fault p src stack log') : log = log' := by
  induction h generalizing log' with
  | itself hperforms hcalls =>
    cases h' with
    | itself hperforms' hcalls' =>
      obtain rfl := hperforms.unique hperforms' (answered_of_cameBack hcalls.cameBack)
        (answered_of_cameBack hcalls'.cameBack)
      rw [hcalls.unique hcalls']
    | within _ _ hinner => cases hinner
  | within hperforms hcalls hinner ih =>
    cases h' with
    | itself => cases hinner
    | within hperforms' hcalls' hinner' =>
      have heq := hperforms.unique hperforms' (answered_concat hcalls.cameBack hinner.active)
        (answered_concat hcalls'.cameBack hinner'.active)
      obtain ⟨rfl, hlast⟩ := List.append_inj' heq rfl
      cases hlast
      rw [hcalls.unique hcalls', ih hinner']

theorem openLog_iff (h : store.OpenLog fault p src stack log) (stack' : List (Parser × Text))
    (log' : List Event) :
    store.OpenLog fault p src stack' log' ↔ stack' = stack ∧ log' = log := by
  constructor
  · intro h'
    obtain rfl := h'.active.unique h.active
    exact ⟨rfl, h'.unique h⟩
  · rintro ⟨rfl, rfl⟩
    exact h

/-! ## What stays open -/

theorem ClosedLog.openLines_append (h : store.ClosedLog calls log) (opened : List (Text × Text))
    (rest : List Event) : openLines opened (log ++ rest) = openLines opened rest := by
  induction h generalizing opened rest with
  | nil => rfl
  | cons _ _ _ ihinner ihcalls =>
    simp only [List.cons_append, List.append_assoc, openLines]
    rw [ihinner, openLines, if_pos rfl, ihcalls]

theorem ClosedLog.openLines (h : store.ClosedLog calls log) (opened : List (Text × Text)) :
    openLines opened log = some opened := by
  have happend := h.openLines_append opened []
  rwa [List.append_nil] at happend

theorem OpenLog.openLines (h : store.OpenLog fault p src stack log) (opened : List (Text × Text)) :
    openLines opened log = some ((stack.map Call.line).reverse ++ opened) := by
  induction h generalizing opened with
  | itself _ hcalls => exact hcalls.openLines _
  | within _ hcalls _ ih =>
    rw [Parselet.openLines, hcalls.openLines_append, ih, List.map_cons, List.reverse_cons,
      List.append_assoc]
    rfl

/-- What a run of `p` on `src` logs. If the run comes back, its log is the one that belongs to the
call, no line in it stays open, and the last line shows the result. If a fault is raised, it is the
one that belongs to the calls that are active then, and their lines stay open and no others. -/
def Logged (store : Store) (p : Parser) (src : Text) (run : Run Result) : Prop :=
  match run.ending with
  | .value r =>
    (∀ r' log, store.ClosedLog [⟨p, src, .value r'⟩] log ↔ r' = r ∧ log = run.log) ∧
      openLines [] run.log = some [] ∧
      ∃ inner, run.log = .enter p.name src :: (inner ++ [.leave p.name r])
  | .raised fault =>
    ∃ active, (∀ stack, store.Active fault p src stack ↔ stack = active) ∧
      (∀ stack log, store.OpenLog fault p src stack log ↔ stack = active ∧ log = run.log) ∧
      openLines [] run.log = some (active.map Call.line).reverse
  | .unfinished => True

/-- The log of a run, which is the only one of its kind. -/
def Logs (store : Store) (p : Parser) (src : Text) (run : Run Result) : Prop :=
  match run.ending with
  | .value r => store.ClosedLog [⟨p, src, .value r⟩] run.log
  | .raised fault => ∃ active, store.OpenLog fault p src active run.log
  | .unfinished => True

theorem Logs.closedLog {run : Run Result} (h : store.Logs p src run)
    (hr : run.ending = .value r) : store.ClosedLog [⟨p, src, .value r⟩] run.log := by
  rwa [Logs, hr] at h

theorem Logs.logged {run : Run Result} (h : store.Logs p src run) : store.Logged p src run := by
  unfold Logs at h
  unfold Logged
  cases hending : run.ending with
  | value r =>
    rw [hending] at h
    refine ⟨closedLog_single_iff h, h.openLines [], ?_⟩
    generalize run.log = log at h
    cases h with
    | cons _ _ hrest =>
      cases hrest
      exact ⟨_, rfl⟩
  | raised fault =>
    rw [hending] at h
    obtain ⟨active, h⟩ := h
    refine ⟨active, fun stack => ⟨fun hstack => hstack.unique h.active, ?_⟩, openLog_iff h, ?_⟩
    · rintro rfl
      exact h.active
    · rw [h.openLines, List.append_nil]
  | unfinished => trivial

end Store

namespace Parser

variable {store : Store} {p : Parser} {src : Text} {d : Nat} {calls : List Call}
  {log : List Event}

/-- The circumstances of a run that is logged and whose integers may be of any length. -/
def logging : Settings := { limit := none, debug := true }

/-- Without a limit every result can be written, so a call that comes back closes its line. -/
theorem logs_visit_of_value {r : Result} (hperforms : store.BodyPerforms p src calls (.value r))
    (hcalls : store.ClosedLog calls log) :
    store.Logs p src (logging.visit p.name src ⟨.value r, log⟩) := by
  obtain ⟨t, ht⟩ := Result.written?_of_fits (r.fits_none)
  have hvisit : logging.visit p.name src ⟨.value r, log⟩ =
      ⟨.value r, .enter p.name src :: (log ++ [.leave p.name r])⟩ := by
    simp only [Settings.visit, logging, if_true, bind_of_value, emit, ht]
    rfl
  rw [hvisit]
  exact Store.closedLog_single hperforms hcalls

theorem logs_visit_of_raised {fault : Fault} {active : List (Parser × Text)}
    (h : store.OpenLog fault p src active (.enter p.name src :: log)) :
    store.Logs p src (logging.visit p.name src ⟨.raised fault, log⟩) :=
  ⟨active, h⟩

theorem ending_logging (store : Store) (d : Nat) (p : Parser) (src : Text) :
    (runTo store logging d p src).ending = (runTo store { limit := none } d p src).ending := by
  rcases stopsOrAlike_debug store none d p src with ⟨stop, ⟨bound, hbound, -⟩, -⟩ | halike
  · cases hbound
  · exact halike

/-- Calls that all came back, one after another. -/
theorem closedLog_calls
    (hlogs : ∀ c ∈ calls, store.Logs c.parser c.src (runTo store logging d c.parser c.src))
    (hcalls : ∀ c ∈ calls, c.Returned)
    (hanswered : ∀ c ∈ calls, c.AnsweredBy (runTo store logging d)) :
    store.ClosedLog calls (calls.flatMap fun c => (runTo store logging d c.parser c.src).log) := by
  induction calls with
  | nil => exact .nil
  | cons c calls ih =>
    rw [List.forall_mem_cons] at hlogs hcalls hanswered
    obtain ⟨q, mid, e⟩ := c
    obtain ⟨r, rfl⟩ := hcalls.1
    rw [List.flatMap_cons]
    exact (hlogs.1.closedLog hanswered.1).append (ih hlogs.2 hcalls.2 hanswered.2)

/-- One call, if all calls inside it are logged as they should be. -/
theorem logs_runTo_succ (ih : ∀ q mid, store.Logs q mid (runTo store logging d q mid))
    (p : Parser) (src : Text) : store.Logs p src (runTo store logging (d + 1) p src) := by
  obtain ⟨calls, e, hperforms, hfinish, hanswered⟩ :=
    Body.eval_performsCalls store none (runTo store logging d) p.body src
  have hbody : p.body.eval store none (runTo store logging d) src = _ := hperforms _ hanswered
  rw [show runTo store logging (d + 1) p src = logging.visit p.name src _ from
    congrArg (logging.visit p.name src) hbody]
  -- all calls came back, or the last of them is where the run stopped
  cases hfinish with
  | itself hcalls =>
    have hclosed := closedLog_calls (fun c _ => ih c.parser c.src) hcalls hanswered
    cases e with
    | value r => exact logs_visit_of_value hperforms hclosed
    | raised fault => exact logs_visit_of_raised (.itself hperforms hclosed)
    | unfinished => exact True.intro
  | @within before q mid stop hcalls =>
    obtain ⟨hbefore, hlast⟩ := List.forall_mem_append.1 hanswered
    have hclosed := closedLog_calls (fun c _ => ih c.parser c.src) hcalls hbefore
    cases stop with
    | none => exact True.intro
    | some fault =>
      have hq : (runTo store logging d q mid).ending = .raised fault :=
        hlast _ (List.mem_singleton_self _)
      have hinner := ih q mid
      rw [Store.Logs, hq] at hinner
      obtain ⟨active, hopen⟩ := hinner
      rw [List.flatMap_append, List.flatMap_singleton]
      exact logs_visit_of_raised (.within hperforms hclosed hopen)

theorem logs_runTo (store : Store) (d : Nat) (p : Parser) (src : Text) :
    store.Logs p src (runTo store logging d p src) := by
  induction d generalizing p src with
  | zero => trivial
  | succ d ih => exact logs_runTo_succ ih p src

/-- Without a limit, debugging changes nothing about how a run ends, and its log is well bracketed.
The log of a run that comes back is that of its call: between the line that opens the call and the
line with its result stand the logs of the calls that its body makes, in order, and of no others. At
a fault the calls that are left open are those that it was raised in. -/
theorem debug_log_bracketed (store : Store) (p : Parser) (src : Text) (depth : Nat) :
    (p.parse store { limit := none, debug := true, depth } src).ending =
        (p.parse store { limit := none, depth } src).ending ∧
      store.Logged p src (p.parse store { limit := none, debug := true, depth } src) := by
  have hlogging : p.parse store { limit := none, debug := true, depth } =
      runTo store logging depth p :=
    congrFun (runTo_with_depth logging depth depth) p
  have hplain : p.parse store { limit := none, depth } =
      runTo store { limit := none } depth p :=
    congrFun (runTo_depth none depth depth) p
  rw [hlogging, hplain]
  exact ⟨ending_logging store depth p src, (logs_runTo store depth p src).logged⟩

/-- The first alternative comes back with a failure, the second one with a success. -/
theorem debug_log_bracketed_choice :
    let choice := (seq [character 'a', character 'b']).orElse (character 'a')
    let run := choice.parse ⟨[]⟩ { limit := none, debug := true, depth := 3 } "ac"
    run.log.map Event.line = (["trying (seq('a', 'b') | 'a') on 'ac'",
        "trying seq('a', 'b') on 'ac'",
        "trying 'a' on 'ac'", "'a' -> Success(value='a', remaining='c')",
        "trying 'b' on 'c'", "'b' -> Failure(message=\"Expected 'b' but found 'c'\", src='c')",
        "seq('a', 'b') -> Failure(message=\"Expected 'b' but found 'c'\", src='c')",
        "trying 'a' on 'ac'", "'a' -> Success(value='a', remaining='c')",
        "(seq('a', 'b') | 'a') -> Success(value='a', remaining='c')"] : List Text) ∧
      Store.ClosedLog ⟨[]⟩ [⟨choice, "ac", .value (.success (.text "a") "c")⟩] run.log := by
  intro choice run
  have hending : run.ending = .value (.success (.text "a") "c") := by decide +kernel
  have hlogged := (debug_log_bracketed ⟨[]⟩ choice "ac" 3).2
  change Store.Logged ⟨[]⟩ choice "ac" run at hlogged
  rw [Store.Logged, hending] at hlogged
  exact ⟨by decide +kernel, (hlogged.1 _ _).2 ⟨rfl, rfl⟩⟩

/-- A forward that stands for nothing, after a call that came back. -/
example : ((seq [character 'a', forward ⟨0, "later"⟩]).parse ⟨[none]⟩
    { limit := none, debug := true, depth := 3 } "ab").log.map Event.line =
      (["trying seq('a', later) on 'ab'", "trying 'a' on 'ab'",
        "'a' -> Success(value='a', remaining='b')", "trying later on 'b'"] : List Text) := by
  decide +kernel

end Parser

end Parselet
