import Parselet.Proofs.Step.Family

/-!
Runs without a bound on the depth of calls. A run that is not cut off ends alike at every greater
depth, so each parser has one step that all runs of sufficient depth agree with. That step does what
the body of the parser does when its calls are unbounded too.
-/

namespace Parselet.Parser

variable {store : Store} {limit : Limit} {p : Parser} {src : Text} {e : Ending Result}

/-- However deep calls may be nested, from some depth on the parser ends with `e`. -/
def EndsIn (store : Store) (limit : Limit) (p : Parser) (src : Text) (e : Ending Result) : Prop :=
  ∃ d, ∀ k, d ≤ k → (p.parse store { limit, depth := k } src).ending = e

/-- The greatest depth is not consulted on the way down. -/
theorem runTo_with_depth (s : Settings) (k d : Nat) :
    runTo store { s with depth := k } d = runTo store s d := by
  induction d with
  | zero => rfl
  | succ d ih =>
    funext p src
    simp only [runTo, Settings.visit, ih]

theorem runTo_depth (limit : Limit) (k d : Nat) :
    runTo store { limit, depth := k } d = runTo store { limit } d :=
  runTo_with_depth { limit } k d

section Cutting

open Run

/-- A run is cut off, or it ends like the run that may go one call deeper. -/
theorem runTo_succ (s : Settings) (d : Nat) (p : Parser) (src : Text) :
    (runTo store s d p src).ending = .unfinished ∨
      (runTo store s d p src).ending = (runTo store s (d + 1) p src).ending := by
  have hcut := stopsOrAlike_compositional (· = none)
  -- the calls of both runs make one family, with the deeper run at `true`
  have hruns : StopsOrAlike (· = none) fun deeper =>
      runTo store s (if deeper then d + 1 else d) p src := by
    induction d generalizing p src with
    | zero => exact .inl ⟨none, rfl, rfl⟩
    | succ d ih => exact hcut.visit (hcut.eval ih p.body src) s p.name src
  rcases hruns with ⟨stop, rfl, hstop⟩ | halike
  · exact .inl hstop
  · exact .inr halike

/-- More depth changes nothing about a run that was not cut off. -/
theorem runTo_mono {s : Settings} {d k : Nat} (hle : d ≤ k)
    (h : (runTo store s d p src).ending ≠ .unfinished) :
    (runTo store s k p src).ending = (runTo store s d p src).ending := by
  induction hle with
  | refl => rfl
  | step hle ih =>
    rcases runTo_succ s _ p src with hcut | heq
    · exact absurd (ih ▸ hcut) h
    · rw [← heq, ih]

end Cutting

section Unbounded

open Classical in
/-- The run of a parser whose calls may be nested to any depth; unfinished if no depth is enough. -/
noncomputable def run (store : Store) (limit : Limit) (p : Parser) : Step := fun src =>
  if h : ∃ d, (runTo store { limit } d p src).ending ≠ .unfinished then
    runTo store { limit } h.choose p src
  else Run.unfinished

theorem run_eventually (store : Store) (limit : Limit) (p : Parser) (src : Text) :
    ∃ d, ∀ k, d ≤ k →
      (runTo store { limit } k p src).ending = (run store limit p src).ending := by
  by_cases h : ∃ d, (runTo store { limit } d p src).ending ≠ .unfinished
  · refine ⟨h.choose, fun k hk => ?_⟩
    rw [runTo_mono hk h.choose_spec, run, dif_pos h]
  · refine ⟨0, fun k _ => ?_⟩
    rw [run, dif_neg h]
    exact not_not.1 (not_exists.1 h k)

/-- A run that ends at some depth ends as the unbounded run does. -/
theorem run_ending_of_runTo {d : Nat} (h : (runTo store { limit } d p src).ending = e)
    (hne : e ≠ .unfinished) : (run store limit p src).ending = e := by
  obtain ⟨k, hk⟩ := run_eventually store limit p src
  rw [← hk (max d k) (Nat.le_max_right d k), runTo_mono (Nat.le_max_left d k) (h ▸ hne), h]

theorem endsIn_iff : EndsIn store limit p src e ↔ (run store limit p src).ending = e := by
  obtain ⟨d, hd⟩ := run_eventually store limit p src
  simp only [EndsIn, parse, runTo_depth]
  constructor
  -- both depths are reached at the greater of them
  · rintro ⟨d', hd'⟩
    rw [← hd (max d d') (Nat.le_max_left d d'), hd' _ (Nat.le_max_right d d')]
  · rintro rfl
    exact ⟨d, hd⟩

theorem EndsIn.of_parse {d : Nat} (h : (p.parse store { limit, depth := d } src).ending = e)
    (hne : e ≠ .unfinished) : EndsIn store limit p src e := by
  rw [parse, runTo_depth] at h
  exact endsIn_iff.2 (run_ending_of_runTo h hne)

/-- From some number on, all runs end as the one without a number does. -/
def EventuallyAlike {α : Type} (r : Option Nat → Run α) : Prop :=
  ∃ d, ∀ k, d ≤ k → (r (some k)).ending = (r none).ending

theorem eventuallyAlike_compositional : Run.Compositional EventuallyAlike where
  const _ := ⟨0, fun _ _ => rfl⟩
  bind := by
    rintro α β r next ⟨d, hd⟩ hnext
    cases hnone : (r none).ending with
    | value a =>
      obtain ⟨d', hd'⟩ := hnext a
      refine ⟨max d d', fun k hk => ?_⟩
      have hsome := (hd k (by omega)).trans hnone
      simpa only [Run.ending_bind_of_value hsome, Run.ending_bind_of_value hnone] using
        hd' k (by omega)
    | raised fault =>
      refine ⟨d, fun k hk => ?_⟩
      have hsome := (hd k hk).trans hnone
      rw [Run.ending_bind_of_raised hsome, Run.ending_bind_of_raised hnone]
    | unfinished =>
      refine ⟨d, fun k hk => ?_⟩
      have hsome := (hd k hk).trans hnone
      rw [Run.ending_bind_of_unfinished hsome, Run.ending_bind_of_unfinished hnone]

/-- The unbounded run of a parser is its body, with unbounded runs for its calls. -/
theorem run_ending (store : Store) (limit : Limit) (p : Parser) (src : Text) :
    (run store limit p src).ending = (p.body.eval store limit (run store limit) src).ending := by
  obtain ⟨d, hd⟩ := run_eventually store limit p src
  -- all depths make one family, with the unbounded run at `none`
  let call (k : Option Nat) : Parser → Step :=
    k.elim (run store limit) fun k => runTo store { limit } k
  have hcall (p : Parser) (src : Text) : EventuallyAlike fun d => call d p src :=
    run_eventually store limit p src
  obtain ⟨d', hd'⟩ := eventuallyAlike_compositional.eval hcall p.body src
  calc (run store limit p src).ending
    _ = (runTo store { limit } (max d d' + 1) p src).ending := (hd _ (by omega)).symm
    _ = (p.body.eval store limit (runTo store { limit } (max d d')) src).ending := rfl
    _ = (p.body.eval store limit (run store limit) src).ending := hd' _ (by omega)

end Unbounded

end Parselet.Parser
