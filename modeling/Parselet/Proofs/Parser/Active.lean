import Parselet.Proofs.Parser.Depth

/-!
The calls that a body makes, in order, and those that a fault is raised in. A body knows of a call
only how it ended, so the calls it makes are read off its runs with calls that log what they like.
-/

namespace Parselet

/-- A call of a parser on a text, and how it ended. -/
structure Call where
  parser : Parser
  src : Text
  ending : Ending Result

namespace Call

/-- The call ended as `run` does with it. -/
def AnsweredBy (run : Parser → Step) (c : Call) : Prop := (run c.parser c.src).ending = c.ending

/-- The call came back with a result. -/
def Returned (c : Call) : Prop := ∃ r, c.ending = .value r

end Call

/-- If the calls in the list are answered as it says, then `r` makes exactly these calls, in this
order, and ends with `e`: it logs what they log and nothing else. -/
def Performs {α : Type} (r : (Parser → Step) → Run α) (calls : List Call) (e : Ending α) : Prop :=
  ∀ run : Parser → Step, (∀ c ∈ calls, c.AnsweredBy run) →
    r run = ⟨e, calls.flatMap fun c => (run c.parser c.src).log⟩

/-- Calls that came back, or all but the last, whose early end is then that of the whole. -/
inductive Finish {α : Type} : List Call → Ending α → Prop
  | itself {calls : List Call} {e : Ending α} : (∀ c ∈ calls, c.Returned) → Finish calls e
  | within {calls : List Call} {q : Parser} {mid : Text} {stop : Option Fault} :
      (∀ c ∈ calls, c.Returned) → Finish (calls ++ [⟨q, mid, .stopped stop⟩]) (.stopped stop)

theorem Ending.value_or_stopped {α : Type} (e : Ending α) :
    (∃ a, e = .value a) ∨ ∃ stop, e = .stopped stop := by
  cases e with
  | value a => exact .inl ⟨a, rfl⟩
  | raised fault => exact .inr ⟨some fault, rfl⟩
  | unfinished => exact .inr ⟨none, rfl⟩

theorem Ending.stopped_ne_value {α : Type} {stop : Option Fault} {a : α} :
    (Ending.stopped stop : Ending α) ≠ .value a := by
  cases stop <;> nofun

theorem Finish.returned {α : Type} {calls : List Call} {a : α}
    (h : Finish calls (.value a)) : ∀ c ∈ calls, c.Returned := by
  generalize he : Ending.value a = e at h
  cases h with
  | itself hcalls => exact hcalls
  | within hcalls => exact absurd he.symm Ending.stopped_ne_value

/-- What follows a value makes the calls that are still to come. -/
theorem Finish.after {α β : Type} {calls calls' : List Call} {a : α} {e : Ending β}
    (h : Finish calls (.value a)) (h' : Finish calls' e) : Finish (calls ++ calls') e := by
  have hcalls := h.returned
  cases h' with
  | itself hcalls' =>
    exact .itself (List.forall_mem_append.2 ⟨hcalls, hcalls'⟩)
  | @within calls' q mid stop hcalls' =>
    rw [← List.append_assoc]
    exact .within (List.forall_mem_append.2 ⟨hcalls, hcalls'⟩)

theorem Finish.stopped {α β : Type} {calls : List Call} {stop : Option Fault}
    (h : Finish calls (.stopped stop : Ending α)) :
    Finish calls (.stopped stop : Ending β) := by
  generalize he : (Ending.stopped stop : Ending α) = e at h
  cases h with
  | itself hcalls => exact .itself hcalls
  | @within calls q mid stop' hcalls =>
    have hstop : stop = stop' := by cases stop <;> cases stop' <;> cases he <;> rfl
    exact hstop ▸ .within hcalls

namespace Run

theorem bind_of_value {α β : Type} {a : α} {log : List Event} {next : α → Run β} :
    (⟨.value a, log⟩ : Run α) >>= next = ⟨(next a).ending, log ++ (next a).log⟩ := rfl

theorem bind_of_stopped {α β : Type} {stop : Option Fault} {log : List Event} {next : α → Run β} :
    (⟨.stopped stop, log⟩ : Run α) >>= next = ⟨.stopped stop, log⟩ := by
  cases stop <;> rfl

/-- `r` makes some calls that `answers` ends, and then ends itself. -/
def PerformsCalls (answers : Parser → Step) {α : Type} (r : (Parser → Step) → Run α) : Prop :=
  ∃ calls e, Performs r calls e ∧ Finish calls e ∧ ∀ c ∈ calls, c.AnsweredBy answers

theorem performsCalls_sequential (answers : Parser → Step) :
    Sequential (PerformsCalls answers) where
  ofExcept e := by
    refine ⟨[], (ofExcept e).ending, fun run _ => ?_, .itself (by simp), by simp⟩
    cases e <;> rfl
  bind := by
    rintro α β r next ⟨calls, e, hperforms, hfinish, hanswered⟩ hnext
    rcases e.value_or_stopped with ⟨a, rfl⟩ | ⟨stop, rfl⟩
    -- after a value, the calls of what follows are made too
    · obtain ⟨calls', e', hperforms', hfinish', hanswered'⟩ := hnext a
      refine ⟨calls ++ calls', e', fun run hrun => ?_, hfinish.after hfinish',
        List.forall_mem_append.2 ⟨hanswered, hanswered'⟩⟩
      obtain ⟨hcalls, hcalls'⟩ := List.forall_mem_append.1 hrun
      have hafter : next run a = ⟨e', calls'.flatMap fun c => (run c.parser c.src).log⟩ :=
        hperforms' run hcalls'
      change r run >>= next run = _
      rw [hperforms run hcalls, List.flatMap_append, bind_of_value, hafter]
    · refine ⟨calls, .stopped stop, fun run hrun => ?_, hfinish.stopped, hanswered⟩
      change r run >>= next run = _
      rw [hperforms run hrun, bind_of_stopped]

theorem performsCalls_call (answers : Parser → Step) (p : Parser) (src : Text) :
    PerformsCalls answers fun run => run p src := by
  refine ⟨[⟨p, src, (answers p src).ending⟩], (answers p src).ending, fun run hrun => ?_, ?_,
    by simp [Call.AnsweredBy]⟩
  · have hcall : (run p src).ending = (answers p src).ending := hrun _ (List.mem_singleton_self _)
    simp [← hcall]
  · rcases (answers p src).ending.value_or_stopped with ⟨r, hr⟩ | ⟨stop, hstop⟩
    · exact .itself (by simp [Call.Returned, hr])
    · rw [hstop]
      exact @Finish.within _ [] p src stop (by simp)

end Run

/-- What a body does is to make some calls, and to end. -/
theorem Body.eval_performsCalls (store : Store) (limit : Limit) (answers : Parser → Step) (b : Body)
    (src : Text) : Run.PerformsCalls answers fun run => b.eval store limit run src :=
  (Run.performsCalls_sequential answers).eval (Run.performsCalls_call answers) b src

/-! ## Only one list of calls -/

theorem eq_of_marks_eq {α : Type} {l l' : List α}
    (h : ∀ mark : α → Event, l.map mark = l'.map mark) : l = l' := by
  classical
  have hlength : l.length = l'.length := by
    simpa using congrArg List.length (h fun _ => .enter [] [])
  refine List.ext_getElem hlength fun i hi hi' => ?_
  have hmarks := h fun a => if a = l'[i] then .enter [] [] else .enter [] [.lineFeed]
  have hmark := congrArg (·[i]?) hmarks
  by_contra hne
  simp [hi, hi', hne] at hmark

/-- Which calls are made is determined by their answers: a call can log a mark of its own. -/
theorem Performs.unique {α : Type} {r : (Parser → Step) → Run α} {calls calls' : List Call}
    {e e' : Ending α} {answers : Parser → Step} (h : Performs r calls e) (h' : Performs r calls' e')
    (hcalls : ∀ c ∈ calls, c.AnsweredBy answers) (hcalls' : ∀ c ∈ calls', c.AnsweredBy answers) :
    calls = calls' := by
  refine eq_of_marks_eq fun mark => ?_
  let marked : Parser → Step := fun q mid =>
    ⟨(answers q mid).ending, [mark ⟨q, mid, (answers q mid).ending⟩]⟩
  have hlog (cs : List Call) (hcs : ∀ c ∈ cs, c.AnsweredBy answers) :
      (cs.flatMap fun c => (marked c.parser c.src).log) = cs.map mark := by
    rw [← List.flatMap_pure_eq_map]
    refine List.flatMap_congr fun c hc => ?_
    have hanswer : (answers c.parser c.src).ending = c.ending := hcs c hc
    change [mark ⟨c.parser, c.src, (answers c.parser c.src).ending⟩] = [mark c]
    rw [hanswer]
  rw [← hlog calls hcalls, ← hlog calls' hcalls']
  exact congrArg Run.log ((h marked hcalls).symm.trans (h' marked hcalls'))

/-- A run ends as its body does with the calls that it makes. -/
theorem Performs.run_ending {store : Store} {limit : Limit} {p : Parser} {src : Text}
    {calls : List Call} {e : Ending Result}
    (h : Performs (fun run => p.body.eval store limit run src) calls e)
    (hcalls : ∀ c ∈ calls, c.AnsweredBy (Parser.run store limit)) :
    (Parser.run store limit p src).ending = e :=
  (Parser.run_ending store limit p src).trans (congrArg Run.ending (h _ hcalls))

/-! ## The calls that a fault is raised in -/

namespace Store

variable {store : Store} {fault : Fault} {p : Parser} {src : Text}

/-- What the body of `p` calls on `src`, and how it ends. -/
def BodyPerforms (store : Store) (p : Parser) (src : Text) : List Call → Ending Result → Prop :=
  Performs fun run => p.body.eval store none run src

/-- The call came back with the result that its parser gives in the store. -/
def CameBack (store : Store) (c : Call) : Prop :=
  ∃ r, c.ending = .value r ∧ c.parser.EndsIn store none c.src (.value r)

/-- The calls that are active when a run of `p` on `src` raises the fault, outermost first. The body
of a parser raises it itself after its calls, or the last of them does. -/
inductive Active (store : Store) (fault : Fault) : Parser → Text → List (Parser × Text) → Prop
  | itself {p : Parser} {src : Text} {calls : List Call} :
      store.BodyPerforms p src calls (.raised fault) → (∀ c ∈ calls, store.CameBack c) →
      Active store fault p src [(p, src)]
  | within {p q : Parser} {src mid : Text} {calls : List Call} {inner : List (Parser × Text)} :
      store.BodyPerforms p src (calls ++ [⟨q, mid, .raised fault⟩]) (.raised fault) →
      (∀ c ∈ calls, store.CameBack c) → Active store fault q mid inner →
      Active store fault p src ((p, src) :: inner)

theorem CameBack.answered {c : Call} (h : store.CameBack c) :
    c.AnsweredBy (Parser.run store none) := by
  obtain ⟨r, hr, hends⟩ := h
  exact (Parser.endsIn_iff.1 hends).trans hr.symm

theorem CameBack.not_raised {c : Call} (h : store.CameBack c) : c.ending ≠ .raised fault := by
  obtain ⟨r, hr, -⟩ := h
  rw [hr]
  nofun

theorem answered_of_cameBack {calls : List Call} (h : ∀ c ∈ calls, store.CameBack c) :
    ∀ c ∈ calls, c.AnsweredBy (Parser.run store none) :=
  fun c hc => (h c hc).answered

/-- There are active calls for a fault only where the run raises it. -/
theorem Active.run_ending {stack : List (Parser × Text)} (h : store.Active fault p src stack) :
    (Parser.run store none p src).ending = .raised fault := by
  induction h with
  | itself hperforms hcalls => exact Performs.run_ending hperforms (answered_of_cameBack hcalls)
  | within hperforms hcalls _ ih =>
    refine Performs.run_ending hperforms
      (List.forall_mem_append.2 ⟨answered_of_cameBack hcalls, ?_⟩)
    exact List.forall_mem_singleton.2 ih

theorem answered_concat {calls : List Call} {q : Parser} {mid : Text}
    {inner : List (Parser × Text)} (h : ∀ c ∈ calls, store.CameBack c)
    (hinner : store.Active fault q mid inner) :
    ∀ c ∈ calls ++ [⟨q, mid, .raised fault⟩], c.AnsweredBy (Parser.run store none) :=
  List.forall_mem_append.2
    ⟨answered_of_cameBack h, List.forall_mem_singleton.2 hinner.run_ending⟩

/-- At a fault there is one list of active calls. -/
theorem Active.unique {stack stack' : List (Parser × Text)} (h : store.Active fault p src stack)
    (h' : store.Active fault p src stack') : stack = stack' := by
  -- the calls are the same, so the last of them has the fault in both or in neither
  induction h generalizing stack' with
  | itself hperforms hcalls =>
    cases h' with
    | itself => rfl
    | @within _ q _ mid calls' _ hperforms' hcalls' hinner =>
      have heq := hperforms.unique hperforms' (answered_of_cameBack hcalls)
        (answered_concat hcalls' hinner)
      have hlast := hcalls ⟨q, mid, .raised fault⟩ (by simp [heq])
      exact absurd rfl hlast.not_raised
  | within hperforms hcalls hinner ih =>
    cases h' with
    | itself hperforms' hcalls' =>
      have heq := hperforms.unique hperforms' (answered_concat hcalls hinner)
        (answered_of_cameBack hcalls')
      have hlast := hcalls' _ (heq ▸ List.mem_concat_self)
      exact absurd rfl hlast.not_raised
    | within hperforms' hcalls' hinner' =>
      have heq := hperforms.unique hperforms' (answered_concat hcalls hinner)
        (answered_concat hcalls' hinner')
      obtain ⟨-, hlast⟩ := List.append_inj' heq rfl
      cases hlast
      rw [ih hinner']

end Store

end Parselet
