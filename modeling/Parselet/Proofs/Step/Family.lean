import Parselet.Parser.Eval
import Parselet.Proofs.Parser.Calls
import Parselet.Proofs.Step.Gives

/-!
Families of runs. A property of families that sequencing keeps holds of what a body does as soon as
it holds of the calls the body makes. This is how facts about one depth of calls are carried to the
next, whatever the body.
-/

namespace Parselet

/-- A property of families of runs that holds where all members have one value, or one fault, and
log nothing, and that is kept when two families are run in sequence. -/
structure Run.Sequential {ι : Type} (P : ∀ {α : Type}, (ι → Run α) → Prop) : Prop where
  ofExcept : ∀ {α : Type} (e : Except Fault α), P fun _ => Run.ofExcept e
  bind : ∀ {α β : Type} {r : ι → Run α} {next : ι → α → Run β},
    P r → (∀ a, P fun i => next i a) → P fun i => r i >>= next i

/-- A property of this kind that holds wherever all members are one run. -/
structure Run.Compositional {ι : Type} (P : ∀ {α : Type}, (ι → Run α) → Prop) : Prop
    extends Run.Sequential P where
  const : ∀ {α : Type} (r : Run α), P fun _ => r
  ofExcept := fun e => const (Run.ofExcept e)

namespace Run.Sequential

variable {ι : Type} {P : ∀ {α : Type}, (ι → Run α) → Prop} (hP : Run.Sequential P)
  {p q : ι → Step}

include hP

theorem pure {α : Type} (a : α) : P fun _ => (Pure.pure a : Run α) := hP.ofExcept (.ok a)

theorem literalFailure (s expected src : Text) :
    P fun _ => Step.literalFailure s expected src := by
  unfold Step.literalFailure
  split <;> exact hP.pure _

theorem satisfy (accepts : CodePoint → Bool) (description src : Text) :
    P fun _ => Step.satisfy accepts description src := by
  unfold Step.satisfy
  split
  · exact hP.pure _
  · split <;> exact hP.pure _

theorem string (s src : Text) : P fun _ => Step.string s src := by
  unfold Step.string
  split
  · exact hP.pure _
  · exact hP.literalFailure _ _ _

theorem anycase (s src : Text) : P fun _ => Step.anycase s src := by
  unfold Step.anycase
  split
  · exact hP.pure _
  · exact hP.literalFailure _ _ _

theorem regex (m : Matcher) (src : Text) : P fun _ => Step.regex m src := by
  unfold Step.regex
  split
  · exact hP.pure _
  · simp only
    split <;> exact hP.pure _

theorem nonempty (hp : ∀ src, P fun i => p i src) (src : Text) :
    P fun i => Step.nonempty (p i) src := by
  refine hP.bind (hp src) fun r => ?_
  split <;> exact hP.pure _

theorem optional (hp : ∀ src, P fun i => p i src) (src : Text) :
    P fun i => Step.optional (p i) src := by
  refine hP.bind (hp src) fun r => ?_
  cases r <;> exact hP.pure _

theorem lookahead (hp : ∀ src, P fun i => p i src) (src : Text) :
    P fun i => Step.lookahead (p i) src := by
  refine hP.bind (hp src) fun r => ?_
  cases r <;> exact hP.pure _

theorem inverted (hp : ∀ src, P fun i => p i src) (limit : Limit) (src : Text) :
    P fun i => Step.inverted limit (p i) src := by
  refine hP.bind (hp src) fun r => ?_
  cases r with
  | failure m s => exact hP.pure _
  | success v rest => exact hP.bind (hP.ofExcept (v.written? limit)) fun _ => hP.pure _

theorem iterate (hp : ∀ src, P fun i => p i src) (src : Text) :
    P fun i => Step.iterate (p i) src := by
  induction hn : src.length using Nat.strongRecOn generalizing src with
  | ind n ih =>
    subst hn
    -- all members of the family are unfolded at once
    rw [funext fun i => Step.iterate.eq_1 (p i) src]
    refine hP.bind (hp src) fun r => ?_
    cases r with
    | failure m s => exact hP.pure _
    | success v rest =>
      by_cases hlt : rest.length < src.length
      · simp only [hlt, if_true]
        exact hP.bind (ih _ hlt rest rfl) fun _ => hP.pure _
      · simp only [hlt, if_false]
        exact hP.pure _

theorem flatMap {next : ι → Value → Except Fault Step} (hp : ∀ src, P fun i => p i src)
    (hnext : ∀ v rest, P fun i => Run.ofExcept (next i v) >>= fun step => step rest) (src : Text) :
    P fun i => Step.flatMap (p i) (next i) src := by
  refine hP.bind (hp src) fun r => ?_
  cases r with
  | failure m s => exact hP.pure _
  | success v rest => exact hnext v rest

theorem sepBy (hp : ∀ src, P fun i => p i src) (hq : ∀ src, P fun i => q i src) (src : Text) :
    P fun i => Step.sepBy (p i) (q i) src := by
  refine hP.bind (hp src) fun r => ?_
  cases r with
  | failure m s => exact hP.pure _
  | success v rest =>
    simp only [Step.separated_eq_iterate]
    have hnext (_ : Value) (mid : Text) :
        P fun i => Run.ofExcept (.ok (p i)) >>= fun step => step mid := hp mid
    exact hP.bind (hP.iterate (hP.flatMap hq hnext) rest) fun _ => hP.pure _

theorem collect {ps : List Parser} {call : ι → Parser → Step}
    (hcall : ∀ p ∈ ps, ∀ src, P fun i => call i p src) (src : Text) :
    P fun i => Step.collect (ps.map (call i)) src := by
  induction ps generalizing src with
  | nil => exact hP.pure _
  | cons p ps ih =>
    obtain ⟨hp, hps⟩ := List.forall_mem_cons.1 hcall
    refine hP.bind (hp src) fun r => ?_
    cases r with
    | failure m s => exact hP.pure _
    | success v rest =>
      refine hP.bind (ih hps rest) fun e => ?_
      cases e <;> exact hP.pure _

theorem seq {ps : List Parser} {call : ι → Parser → Step}
    (hcall : ∀ p ∈ ps, ∀ src, P fun i => call i p src) (src : Text) :
    P fun i => Step.seq (ps.map (call i)) src := by
  refine hP.bind (hP.collect hcall src) fun e => ?_
  cases e <;> exact hP.pure _

theorem firstOf {ps : List Parser} {call : ι → Parser → Step}
    (hcall : ∀ p ∈ ps, ∀ src, P fun i => call i p src) (r : Result) (src : Text) :
    P fun i => Step.firstOf r (ps.map (call i)) src := by
  induction ps generalizing r with
  | nil => exact hP.pure _
  | cons p ps ih =>
    obtain ⟨hp, hps⟩ := List.forall_mem_cons.1 hcall
    refine hP.bind (hp src) fun r' => ?_
    cases r' with
    | failure m s => exact ih hps _
    | success v rest => exact hP.pure _

/-- What holds of the calls to the parts of a body holds of the body. The members of the family may
run in stores of their own, so a body that is a forward is left to the second condition. -/
theorem eval_of_parts (store : ι → Store) {limit : Limit} {call : ι → Parser → Step} {b : Body}
    (hcall : ∀ p, b.Has p → ∀ src, P fun i => call i p src)
    (hforward : ∀ f, b = .forward f → ∀ src, P fun i => b.eval (store i) limit (call i) src)
    (src : Text) : P fun i => b.eval (store i) limit (call i) src := by
  -- bodies without calls are constant families, the others are sequences of calls
  cases b with
  | pure v => exact hP.pure _
  | fail m => exact hP.pure _
  | eof => cases src <;> exact hP.pure _
  | character c => exact hP.satisfy _ _ src
  | satisfy accepts m => exact hP.satisfy accepts m src
  | string s => exact hP.string s src
  | anycase s => exact hP.anycase s src
  | regex m => exact hP.regex m src
  | custom f => exact hP.ofExcept (f src)
  | map p f => exact hP.bind (hcall p rfl src) fun r => hP.ofExcept (r.map (f limit))
  | flatMap p next =>
    refine hP.flatMap (hcall p (.inl rfl)) (fun v rest => ?_) src
    cases hk : next limit v with
    | error fault => exact hP.ofExcept (.error fault)
    | ok q => exact hcall q (.inr ⟨limit, v, hk⟩) rest
  | orElse p q =>
    refine hP.bind (hcall p (.inl rfl) src) fun r => ?_
    cases r with
    | success v rest => exact hP.pure _
    | failure m s => exact hcall q (.inr rfl) src
  | many p => exact hP.bind (hP.iterate (hcall p rfl) src) fun _ => hP.pure _
  | nonempty p => exact hP.nonempty (hcall p rfl) src
  | optional p => exact hP.optional (hcall p rfl) src
  | sepBy content separator =>
    exact hP.sepBy (hcall content (.inl rfl)) (hcall separator (.inr rfl)) src
  | seq ps => exact hP.seq hcall src
  | oneOf ps => exact hP.firstOf hcall _ src
  | lookahead p => exact hP.lookahead (hcall p rfl) src
  | inverted p => exact hP.inverted (hcall p rfl) limit src
  | forward f => exact hforward f rfl src

/-- What holds of all calls holds of the body that makes them. -/
theorem eval {store : Store} {limit : Limit} {call : ι → Parser → Step}
    (hcall : ∀ p src, P fun i => call i p src) (b : Body) (src : Text) :
    P fun i => b.eval store limit (call i) src := by
  refine hP.eval_of_parts (fun _ => store) (fun p _ => hcall p) (fun f hf src => ?_) src
  subst hf
  simp only [Body.eval]
  cases store.target? f with
  | none => exact hP.ofExcept (.error _)
  | some p => exact hcall p src

end Run.Sequential

/-- Logging around a call keeps the property. -/
theorem Run.Compositional.visit {ι : Type} {P : ∀ {α : Type}, (ι → Run α) → Prop}
    (hP : Run.Compositional P) {run : ι → Run Result} (hrun : P run) (s : Settings)
    (name src : Text) : P fun i => s.visit name src (run i) := by
  unfold Settings.visit
  split
  · exact hP.bind (hP.const _) fun _ => hP.bind hrun fun _ => hP.const _
  · exact hrun

/-! ## Two runs that end alike unless the first one stops early -/

/-- How a run ends without a value: given up with a fault, or cut off. -/
def Ending.stopped {α : Type} : Option Fault → Ending α
  | some fault => .raised fault
  | none => .unfinished

namespace Run

/-- The first run stops in a way that `stops` allows, or both end alike. -/
def StopsOrAlike (stops : Option Fault → Prop) {α : Type} (r : Bool → Run α) : Prop :=
  (∃ stop, stops stop ∧ (r false).ending = .stopped stop) ∨ (r false).ending = (r true).ending

theorem ending_bind_of_stopped {α β : Type} {r : Run α} {next : α → Run β} {stop : Option Fault}
    (h : r.ending = .stopped stop) : (r >>= next).ending = .stopped stop := by
  cases stop with
  | some fault => exact ending_bind_of_raised h
  | none => exact ending_bind_of_unfinished h

theorem stopsOrAlike_compositional (stops : Option Fault → Prop) :
    Compositional (StopsOrAlike stops) where
  const _ := .inr rfl
  bind := by
    intro α β r next hr hnext
    rcases hr with ⟨stop, hstop, hfalse⟩ | heq
    · exact .inl ⟨stop, hstop, ending_bind_of_stopped hfalse⟩
    · cases hfalse : (r false).ending with
      | value a =>
        have htrue := heq.symm.trans hfalse
        simpa only [StopsOrAlike, ending_bind_of_value hfalse, ending_bind_of_value htrue] using
          hnext a
      | raised fault =>
        have htrue := heq.symm.trans hfalse
        exact .inr (by rw [ending_bind_of_raised hfalse, ending_bind_of_raised htrue])
      | unfinished =>
        have htrue := heq.symm.trans hfalse
        exact .inr (by rw [ending_bind_of_unfinished hfalse, ending_bind_of_unfinished htrue])

end Run

end Parselet
