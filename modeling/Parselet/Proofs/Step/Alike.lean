import Parselet.Proofs.Step.Gives

/-!
Steps on two inputs at once. Two runs end alike if they give the same value, or fail with the same
message, or are given up for the same fault; what they leave, and where they fail, is then related.
-/

namespace Parselet

/-- Two runs have values in the relation `P`, or neither has a value and they end equally. -/
inductive Ending.Alike {α : Type} (P : α → α → Prop) : Ending α → Ending α → Prop
  | value {a b : α} : P a b → Alike P (.value a) (.value b)
  | raised (fault : Fault) : Alike P (.raised fault) (.raised fault)
  | unfinished : Alike P .unfinished .unfinished

/-- The same value or the same message. What successes leave is in the relation `R`, and where
failures are is in the relation `F`. -/
inductive Result.Alike (F R : Text → Text → Prop) : Result → Result → Prop
  | success {v : Value} {rest rest' : Text} : R rest rest' →
      Alike F R (.success v rest) (.success v rest')
  | failure {m s s' : Text} : F s s' → Alike F R (.failure m (some s)) (.failure m (some s'))

namespace Run

variable {α β : Type} {P : α → α → Prop} {Q : β → β → Prop} {r r' : Run α}
  {next next' : α → Run β} {a b : α}

/-- Both runs end alike. -/
def Alike (P : α → α → Prop) (r r' : Run α) : Prop := r.ending.Alike P r'.ending

theorem alike_of_value (h : r.ending = .value a) (h' : r'.ending = .value b) (hab : P a b) :
    Alike P r r' := by
  rw [Alike, h, h']
  exact .value hab

theorem alike_pure (hab : P a b) : Alike P (pure a) (pure b) := .value hab

theorem Alike.bind (h : Alike P r r')
    (hnext : ∀ a b, r.ending = .value a → r'.ending = .value b → P a b →
      Alike Q (next a) (next' b)) : Alike Q (r >>= next) (r' >>= next') := by
  unfold Alike at h
  generalize he : r.ending = e at h
  generalize he' : r'.ending = e' at h
  unfold Alike
  cases h with
  | value hab =>
    rw [ending_bind_of_value he, ending_bind_of_value he']
    exact hnext _ _ he he' hab
  | raised fault =>
    rw [ending_bind_of_raised he, ending_bind_of_raised he']
    exact .raised fault
  | unfinished =>
    rw [ending_bind_of_unfinished he, ending_bind_of_unfinished he']
    exact .unfinished

/-- A computation without an input goes on alike, or is the same fault on both sides. -/
theorem alike_ofExcept_bind {e : Except Fault α}
    (hnext : ∀ a, e = .ok a → Alike Q (next a) (next' a)) :
    Alike Q (ofExcept e >>= next) (ofExcept e >>= next') := by
  cases e with
  | error fault => exact .raised fault
  | ok a => exact hnext a rfl

end Run

namespace Step

open Run

variable {F R R' : Text → Text → Prop} {p q : Step} {ps : List Step} {a b : Text} {v : Value}

/-- The step ends alike on both inputs. -/
def AlikeOn (F R : Text → Text → Prop) (p : Step) (a b : Text) : Prop :=
  Run.Alike (Result.Alike F R) (p a) (p b)

theorem alikeOn_pure (h : R a b) : (pure v).AlikeOn F R a b := alike_pure (.success h)

theorem alikeOn_fail {m : Text} (h : F a b) : (fail m).AlikeOn F R a b := alike_pure (.failure h)

theorem AlikeOn.map {f : Value → Except Fault Value} (hp : p.AlikeOn F R a b) :
    (map p f).AlikeOn F R a b := by
  refine Run.Alike.bind hp fun r r' _ _ h => ?_
  cases h with
  | failure hs => exact alike_pure (.failure hs)
  | @success v rest rest' hrest =>
    cases hv : f v with
    | error fault =>
      simp only [Result.map, hv]
      exact .raised fault
    | ok w =>
      simp only [Result.map, hv]
      exact .value (.success hrest)

theorem AlikeOn.flatMap {next : Value → Except Fault Step} (hp : p.AlikeOn F R a b)
    (hnext : ∀ v rest rest' k, p.Gives a (.success v rest) → p.Gives b (.success v rest') →
      R rest rest' → next v = .ok k → k.AlikeOn F R' rest rest') :
    (flatMap p next).AlikeOn F R' a b := by
  refine Run.Alike.bind hp fun r r' hr hr' h => ?_
  cases h with
  | failure hs => exact alike_pure (.failure hs)
  | success hrest => exact alike_ofExcept_bind fun k hk => hnext _ _ _ k hr hr' hrest hk

theorem AlikeOn.orElse (hp : p.AlikeOn F R a b) (hq : q.AlikeOn F R a b) :
    (orElse p q).AlikeOn F R a b := by
  refine Run.Alike.bind hp fun r r' _ _ h => ?_
  cases h with
  | failure hs => exact hq
  | success hrest => exact alike_pure (.success hrest)

/-- A loop whose iterations consume something goes round equally often, if an iteration ends alike
wherever the two sides may get to together. -/
theorem alike_iterate {I : Text → Text → Prop} (hp : ∀ a b, I a b → p.AlikeOn F R a b)
    (hconsumes : ∀ a v rest, p.Gives a (.success v rest) → rest.length < a.length)
    (hnext : ∀ a b v rest rest', I a b → p.Gives a (.success v rest) → R rest rest' → I rest rest')
    (hI : I a b) :
    Run.Alike (fun x y => x.1 = y.1 ∧ I x.2 y.2) (iterate p a) (iterate p b) := by
  -- iterations consume something on both sides, so the length of one is enough to go by
  induction hn : a.length using Nat.strongRecOn generalizing a b with
  | ind n ih =>
    subst hn
    rw [iterate, iterate]
    refine Run.Alike.bind (hp a b hI) fun r r' hr hr' h => ?_
    cases h with
    | failure _ => exact alike_pure ⟨rfl, hI⟩
    | @success v rest rest' hrest =>
      have hlt := hconsumes a v rest hr
      simp only [hlt, hconsumes b v rest' hr', if_true]
      have hI' : I rest rest' := hnext a b v rest rest' hI hr hrest
      refine (ih _ hlt hI' rfl).bind fun x y _ _ hxy => ?_
      exact alike_pure ⟨congrArg (v :: ·) hxy.1, hxy.2⟩

theorem alikeOn_many
    (h : Run.Alike (fun x y => x.1 = y.1 ∧ R x.2 y.2) (iterate p a) (iterate p b)) :
    (many p).AlikeOn F R a b := by
  refine h.bind fun x y _ _ hxy => alike_pure ?_
  rw [hxy.1]
  exact .success hxy.2

/-- What a row of steps has collected on the two sides, as for results. -/
inductive CollectedAlike (F R : Text → Text → Prop) :
    Except (Text × Option Text) (List Value × Text) →
      Except (Text × Option Text) (List Value × Text) → Prop
  | ok {vs : List Value} {rest rest' : Text} : R rest rest' →
      CollectedAlike F R (.ok (vs, rest)) (.ok (vs, rest'))
  | error {m s s' : Text} : F s s' → CollectedAlike F R (.error (m, some s)) (.error (m, some s'))

theorem alike_collect_nil (h : R a b) :
    Run.Alike (CollectedAlike F R) (collect [] a) (collect [] b) :=
  alike_pure (.ok h)

theorem alike_collect_cons (hp : p.AlikeOn F R a b)
    (hps : ∀ v rest rest', p.Gives a (.success v rest) → p.Gives b (.success v rest') →
      R rest rest' → Run.Alike (CollectedAlike F R') (collect ps rest) (collect ps rest')) :
    Run.Alike (CollectedAlike F R') (collect (p :: ps) a) (collect (p :: ps) b) := by
  refine Run.Alike.bind hp fun r r' hr hr' h => ?_
  cases h with
  | failure hs => exact alike_pure (.error hs)
  | success hrest =>
    refine (hps _ _ _ hr hr' hrest).bind fun x y _ _ hxy => ?_
    cases hxy with
    | ok hleft => exact alike_pure (.ok hleft)
    | error hs => exact alike_pure (.error hs)

theorem alikeOn_seq (h : Run.Alike (CollectedAlike F R) (collect ps a) (collect ps b)) :
    (seq ps).AlikeOn F R a b := by
  refine h.bind fun x y _ _ hxy => ?_
  cases hxy with
  | ok hrest => exact alike_pure (.success hrest)
  | error hs => exact alike_pure (.failure hs)

theorem alike_firstOf (hps : ∀ p ∈ ps, p.AlikeOn F R a b) {r r' : Result}
    (hr : r.Alike F R r') : Run.Alike (Result.Alike F R) (firstOf r ps a) (firstOf r' ps b) := by
  induction ps generalizing r r' with
  | nil => exact alike_pure hr
  | cons p ps ih =>
    obtain ⟨hp, hps⟩ := List.forall_mem_cons.1 hps
    refine Run.Alike.bind hp fun _ _ _ _ h => ?_
    cases h with
    | failure hs => exact ih hps (.failure hs)
    | success hrest => exact alike_pure (.success hrest)

theorem alikeOn_oneOf (hps : ∀ p ∈ ps, p.AlikeOn F R a b) (h : F a b) :
    (oneOf ps).AlikeOn F R a b :=
  alike_firstOf hps (.failure h)

end Step

end Parselet
