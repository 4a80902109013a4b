import Parselet.Proofs.Parser.Active
import Parselet.Proofs.Parser.Gives
import Parselet.Proofs.Step.Chain

/-!
Repetition of any parser, whatever it leaves and whether or not its runs are given up. The parser is
run on the texts of the one chain of matches that cannot be continued, and their values are the
result.
-/

namespace Parselet

open Step

namespace Run

variable {α β : Type} {r r' : Run α} {next next' : α → Run β}

/-- How a sequence of runs ends depends on how its parts end. -/
theorem ending_bind_congr (h : r.ending = r'.ending)
    (hnext : ∀ a, (next a).ending = (next' a).ending) :
    (r >>= next).ending = (r' >>= next').ending := by
  cases hr : r.ending with
  | value a =>
    rw [ending_bind_of_value hr, ending_bind_of_value (h.symm.trans hr)]
    exact hnext a
  | raised fault => rw [ending_bind_of_raised hr, ending_bind_of_raised (h.symm.trans hr)]
  | unfinished => rw [ending_bind_of_unfinished hr, ending_bind_of_unfinished (h.symm.trans hr)]

end Run

namespace Step

variable {p q : Step} {src : Text}

/-- The end of a repetition is that of its step where the chain stops. -/
theorem ending_many {steps : List (Value × Text)} (h : p.MaximalChain src steps) :
    (many p src).ending = (p (leftBy src steps) >>= fun _ =>
      Pure.pure (.success (.list (steps.map Prod.fst)) (leftBy src steps))).ending := by
  rw [many, iterate_eq_of_maximalChain h]
  simp only [Bind.bind, Run.bind]
  cases (p (leftBy src steps)).ending <;> rfl

theorem ending_many_congr (h : ∀ t, (p t).ending = (q t).ending) :
    (many p src).ending = (many q src).ending := by
  obtain ⟨steps, hp⟩ := p.exists_maximalChain src
  have hq := hp.congr fun t _ => h t
  rw [ending_many hp, ending_many hq]
  exact Run.ending_bind_congr (h _) fun _ => rfl

/-- Refusing the empty list leaves all other results as they are. -/
theorem nonempty_eq_self (h : ∀ rest, ¬ p.Gives src (.success (.list []) rest)) :
    nonempty p src = p src := by
  have hsame : nonempty p src = p src >>= Pure.pure := by
    unfold nonempty
    cases hend : (p src).ending with
    | value r =>
      simp only [Bind.bind, Run.bind, hend]
      split
      · next rest => exact absurd hend (h rest)
      · rfl
    | raised fault => simp only [Bind.bind, Run.bind, hend]
    | unfinished => simp only [Bind.bind, Run.bind, hend]
  rw [hsame, bind_pure]

end Step

namespace Parser

variable {store : Store} {limit : Limit} {p q : Parser} {src name : Text}
  {steps : List (Value × Text)} {stop : Option Fault}

/-! ## Repetition -/

/-- The run of `p` on a text, as a call. -/
noncomputable def callOn (store : Store) (limit : Limit) (p : Parser) (src : Text) : Call :=
  ⟨p, src, (run store limit p src).ending⟩

/-- A repetition calls its parser on the texts of the chain, and nothing else. -/
theorem many_performs (h : (run store limit p).MaximalChain src steps) :
    ∃ e, Performs (fun call => p.many.body.eval store limit call src)
      ((visited src steps).map (p.callOn store limit)) e := by
  refine ⟨(Step.many (run store limit p) src).ending, fun call hcalls => ?_⟩
  have hsame (t : Text) (ht : t ∈ visited src steps) :
      (run store limit p t).ending = (call p t).ending :=
    (hcalls _ (List.mem_map_of_mem ht)).symm
  have hcall := h.congr hsame
  have hending : (Step.many (call p) src).ending = (Step.many (run store limit p) src).ending := by
    rw [Step.ending_many h, Step.ending_many hcall]
    exact Run.ending_bind_congr (hsame _ (leftBy_mem_visited src steps)).symm fun _ => rfl
  rw [List.flatMap_map, ← hending]
  show Step.many (call p) src = _
  rw [Step.many, iterate_eq_of_maximalChain hcall]
  simp only [Bind.bind, Run.bind, callOn]
  cases (call p (leftBy src steps)).ending <;> simp [Pure.pure]

theorem ending_run_many (h : (run store limit p).MaximalChain src steps) :
    (run store limit p.many src).ending = (run store limit p (leftBy src steps) >>= fun _ =>
      Pure.pure (.success (.list (steps.map Prod.fst)) (leftBy src steps))).ending :=
  (run_ending store limit p.many src).trans (Step.ending_many h)

theorem gives_many_of_maximalChain (h : (run store limit p).MaximalChain src steps) {r : Result}
    (hr : (run store limit p).Gives (leftBy src steps) r) :
    (run store limit p.many).Gives src
      (.success (.list (steps.map Prod.fst)) (leftBy src steps)) := by
  rw [Step.Gives, ending_run_many h, Run.ending_bind_of_value hr]
  rfl

theorem exists_chain_of_gives_many {v : Value} {rest : Text}
    (h : (run store limit p.many).Gives src (.success v rest)) :
    ∃ steps, (run store limit p).MaximalChain src steps ∧ v = .list (steps.map Prod.fst) ∧
      rest = leftBy src steps := by
  obtain ⟨steps, hsteps⟩ := (run store limit p).exists_maximalChain src
  rw [Step.Gives, ending_run_many hsteps, Run.ending_bind_eq_value] at h
  obtain ⟨r, -, h⟩ := h
  cases h
  exact ⟨steps, hsteps, rfl, rfl⟩

theorem many_stopped_of_chain (h : (run store limit p).Chain src steps)
    (hstop : (run store limit p (leftBy src steps)).ending = .stopped stop) :
    (run store limit p.many src).ending = .stopped stop := by
  have hstuck : (run store limit p).Stuck (leftBy src steps) :=
    stuck_of_no_result fun r hr => Ending.stopped_ne_value (hstop.symm.trans hr)
  rw [ending_run_many ⟨h, hstuck⟩, Run.ending_bind_of_stopped hstop]

/-! Lists that must not be empty. -/

theorem nonempty_fails_iff (hq : ¬ (run store limit q).Fails src) :
    (run store limit (mk name (.nonempty q))).Gives src
        (.failure "Expected at least one match" (some src)) ↔
      ∃ rest, (run store limit q).Gives src (.success (.list []) rest) := by
  refine run_gives.trans (Step.gives_nonempty_failure.trans ⟨?_, fun h => .inr ⟨h, rfl, rfl⟩⟩)
  rintro (h | ⟨h, -⟩)
  · exact absurd ⟨_, _, h⟩ hq
  · exact h

theorem ending_nonempty
    (h : ¬ ∃ rest, (run store limit q).Gives src (.success (.list []) rest)) :
    (run store limit (mk name (.nonempty q)) src).ending = (run store limit q src).ending := by
  rw [run_ending]
  exact congrArg Run.ending (nonempty_eq_self (not_exists.1 h))

/-- A repetition goes along the one chain of matches that cannot be continued. It runs its parser
once on each text of it, and no text comes up often enough for it not to end. If the last run has a
result, the values of the matches are the result, and a further repetition adds nothing. A run that
is given up on a text that a chain comes to ends the repetition. To demand one match at least makes
a difference only if there is none. -/
theorem many_follows_chain (store : Store) (limit : Limit) (p : Parser) (src : Text) :
    ∃ steps, (∀ steps', (run store limit p).MaximalChain src steps' ↔ steps' = steps) ∧
      (∃ e, Performs (fun call => p.many.body.eval store limit call src)
        ((visited src steps).map (p.callOn store limit)) e) ∧
      (visited src steps).length ≤ src.length + 1 ∧
      (∀ r, p.EndsIn store limit (leftBy src steps) (.value r) →
        p.many.EndsIn store limit src
            (.value (.success (.list (steps.map Prod.fst)) (leftBy src steps))) ∧
          p.many.EndsIn store limit (leftBy src steps)
            (.value (.success (.list []) (leftBy src steps)))) ∧
      (∀ steps' stop, (run store limit p).Chain src steps' →
        p.EndsIn store limit (leftBy src steps') (.stopped stop) →
          p.many.EndsIn store limit src (.stopped stop) ∧
            p.many1.EndsIn store limit src (.stopped stop)) ∧
      (p.many1.EndsIn store limit src
          (.value (.failure "Expected at least one match" (some src))) ↔
        ∃ rest, p.many.EndsIn store limit src (.value (.success (.list []) rest))) ∧
      ((¬ ∃ rest, p.many.EndsIn store limit src (.value (.success (.list []) rest))) →
        ∀ e, p.many1.EndsIn store limit src e ↔ p.many.EndsIn store limit src e) := by
  obtain ⟨steps, h⟩ := (run store limit p).exists_maximalChain src
  simp only [endsIn_iff]
  refine ⟨steps, fun steps' => ⟨fun h' => h'.unique h, fun heq => heq ▸ h⟩, many_performs h,
    h.chain.length_visited_le, fun r hr => ⟨gives_many_of_maximalChain h hr, ?_⟩,
    fun steps' stop hchain hstop => ?_, nonempty_fails_iff many_never_fails, fun hne e => ?_⟩
  · have hnone : (run store limit p).MaximalChain (leftBy src steps) [] := ⟨.nil, h.stuck⟩
    exact gives_many_of_maximalChain hnone hr
  · have hmany := many_stopped_of_chain hchain hstop
    refine ⟨hmany, (ending_nonempty ?_).trans hmany⟩
    rintro ⟨rest, hgives⟩
    exact Ending.stopped_ne_value (hmany.symm.trans hgives)
  · rw [many1, ending_nonempty hne]

/-- Reads an `a`. At a `b` it leaves more than it is given, and other letters end the run. -/
def readOrGrow : Text → Except Fault Result
  | [] => .ok (.failure "no letter" none)
  | c :: rest =>
    if c = CodePoint.ofChar 'a' then .ok (.success (.text [c]) rest)
    else if c = CodePoint.ofChar 'b' then .ok (.success (.text [c]) (c :: c :: rest))
    else .error (.user "no such letter")

/-- Two letters are read before the one that grows, and before the one that ends the run. -/
theorem many_follows_chain_growing :
    (many (custom readOrGrow "letter")).EndsIn Store.empty none "aab"
        (.value (.success (.list [.text "a", .text "a"]) "b")) ∧
      (many1 (custom readOrGrow "letter")).EndsIn Store.empty none "aac"
        (.raised (.user "no such letter")) := by
  let p := run Store.empty none (custom readOrGrow "letter")
  have hletter (rest : Text) : p.Gives (CodePoint.ofChar 'a' :: rest)
      (.success (.text "a") rest) := run_gives.2 rfl
  have hchain (rest : Text) : p.Chain (CodePoint.ofChar 'a' :: CodePoint.ofChar 'a' :: rest)
      [(.text "a", CodePoint.ofChar 'a' :: rest), (.text "a", rest)] :=
    .cons (hletter _) (Nat.lt_succ_self _) (.cons (hletter _) (Nat.lt_succ_self _) .nil)
  have hgrows : p.Gives "b" (.success (.text "b") "bb") := by
    refine run_gives.2 (show (Run.ofExcept (readOrGrow "b")).ending = _ from ?_)
    decide +kernel
  constructor
  · obtain ⟨steps, hsteps, -, -, hvalue, -⟩ :=
      many_follows_chain Store.empty none (custom readOrGrow "letter") "aab"
    have hmaximal : p.MaximalChain "aab" [(.text "a", "ab"), (.text "a", "b")] := by
      refine ⟨hchain "b", fun v rest hgives => ?_⟩
      cases hgives.unique hgrows
      decide
    cases (hsteps _).1 hmaximal
    exact (hvalue _ (endsIn_iff.2 hgrows)).1
  · obtain ⟨-, -, -, -, -, hstopped, -⟩ :=
      many_follows_chain Store.empty none (custom readOrGrow "letter") "aac"
    have hraises : (custom readOrGrow "letter").EndsIn Store.empty none "c"
        (.raised (.user "no such letter")) :=
      endsIn_iff.2 ((run_ending _ _ _ _).trans (by decide +kernel))
    exact (hstopped _ (some (.user "no such letter")) (hchain "c") hraises).2

end Parser

end Parselet
