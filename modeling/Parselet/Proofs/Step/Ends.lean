import Parselet.Proofs.Step.Safe
import Parselet.Proofs.Step.Stall

/-!
Steps that come to an end on an input: they are not cut off there, and only certain faults make them
give up.
-/

namespace Parselet

namespace Run

variable {α β : Type} {E E' : Fault → Prop} {r r' : Run α} {next : α → Run β}

/-- The run is not cut off, and it is given up only for a fault that satisfies `E`. -/
def Ends (E : Fault → Prop) (r : Run α) : Prop :=
  match r.ending with
  | .value _ => True
  | .raised fault => E fault
  | .unfinished => False

theorem ends_pure (a : α) : (pure a : Run α).Ends E := trivial

theorem ends_raise {fault : Fault} (h : E fault) : (raise fault : Run α).Ends E := h

theorem ends_ofExcept {e : Except Fault α} (h : ∀ fault, e = .error fault → E fault) :
    (ofExcept e).Ends E := by
  cases e with
  | ok a => trivial
  | error fault => exact h fault rfl

theorem ends_congr (h : r.ending = r'.ending) : r.Ends E ↔ r'.Ends E := by
  rw [Ends, Ends, h]

theorem Ends.not_unfinished (hr : r.Ends E) : r.ending ≠ .unfinished := by
  intro h
  simp only [Ends, h] at hr

theorem Ends.of_raised {fault : Fault} (hr : r.Ends E) (h : r.ending = .raised fault) :
    E fault := by
  simpa only [Ends, h] using hr

theorem Ends.exists_value (hr : r.Ends fun _ => False) : ∃ a, r.ending = .value a := by
  cases h : r.ending with
  | value a => exact ⟨a, rfl⟩
  | raised fault => exact (hr.of_raised h).elim
  | unfinished => exact absurd h hr.not_unfinished

theorem Ends.mono (hr : r.Ends E) (h : ∀ fault, E fault → E' fault) : r.Ends E' := by
  cases hend : r.ending with
  | value a => simp only [Ends, hend]
  | raised fault => simpa only [Ends, hend] using h fault (hr.of_raised hend)
  | unfinished => exact absurd hend hr.not_unfinished

/-- A run that is never given up is in particular given up for no other fault. -/
theorem Ends.of_safe {P : α → Prop} (hr : r.Ends E) (hsafe : r.Safe P) : r.Ends E' := by
  cases hend : r.ending with
  | value a => simp only [Ends, hend]
  | raised fault => exact absurd hend (hsafe.not_raised fault)
  | unfinished => exact absurd hend hr.not_unfinished

theorem Ends.bind (hr : r.Ends E) (hnext : ∀ a, r.ending = .value a → (next a).Ends E) :
    (r >>= next).Ends E := by
  cases h : r.ending with
  | value a => exact (ends_congr (ending_bind_of_value h)).2 (hnext a h)
  | raised fault => simpa only [Ends, ending_bind_of_raised h] using hr.of_raised h
  | unfinished => exact absurd h hr.not_unfinished

end Run

namespace Step

open Run

variable {p q content separator : Step} {ps : List Step} {E E' : Fault → Prop} {src rest : Text}
  {v : Value}

def EndsOn (E : Fault → Prop) (p : Step) (src : Text) : Prop := (p src).Ends E

/-- The step is not cut off on `src`, but it may be given up for any fault. -/
abbrev Halts (p : Step) (src : Text) : Prop := p.EndsOn (fun _ => True) src

theorem EndsOn.mono (hp : p.EndsOn E src) (h : ∀ fault, E fault → E' fault) : p.EndsOn E' src :=
  Run.Ends.mono hp h

theorem endsOn_pure (v : Value) (src : Text) : (pure v).EndsOn E src := ends_pure _

theorem endsOn_fail (m src : Text) : (fail m).EndsOn E src := ends_pure _

theorem endsOn_eof (src : Text) : eof.EndsOn E src := by
  cases src <;> exact ends_pure _

theorem endsOn_satisfy (accepts : CodePoint → Bool) (m src : Text) :
    (satisfy accepts m).EndsOn E src := by
  cases src with
  | nil => exact ends_pure _
  | cons c t =>
    by_cases hc : accepts c = true
    · simp only [EndsOn, satisfy, if_pos hc, ends_pure]
    · simp only [EndsOn, satisfy, if_neg hc, fail, ends_pure]

theorem endsOn_literalFailure (t expected src : Text) :
    (literalFailure t expected).EndsOn E src := by
  unfold EndsOn literalFailure
  split
  · exact ends_pure _
  · exact ends_pure _

theorem endsOn_string (t src : Text) : (string t).EndsOn E src := by
  unfold EndsOn string
  split
  · exact ends_pure _
  · exact endsOn_literalFailure _ _ _

theorem endsOn_anycase (t src : Text) : (anycase t).EndsOn E src := by
  unfold EndsOn anycase
  split
  · exact ends_pure _
  · exact endsOn_literalFailure _ _ _

theorem endsOn_regex (m : Matcher) (src : Text) : (regex m).EndsOn E src := by
  unfold EndsOn regex
  split
  · exact ends_pure _
  · split
    · exact ends_pure _
    · exact ends_pure _

/-- After a step, the next one stands before less input, or the first has stalled. -/
theorem endsOn_after (hp : p.LeavesEnd) (hgives : p.Gives src (.success v rest))
    (hshorter : ∀ mid : Text, mid.length < src.length → q.EndsOn E mid)
    (hstalls : p.Stalls → q.EndsOn E src) : q.EndsOn E rest := by
  have hsuffix := hp hgives
  by_cases hlt : rest.length < src.length
  · exact hshorter rest hlt
  · have hle : src.length ≤ rest.length := Nat.le_of_not_lt hlt
    rw [hsuffix.eq_of_length_le hle]
    exact hstalls ⟨src, v, rest, hgives, hle⟩

theorem EndsOn.map {f : Value → Except Fault Value} (hp : p.EndsOn E src)
    (hf : ∀ v rest fault, p.Gives src (.success v rest) → f v = .error fault → E fault) :
    (map p f).EndsOn E src := by
  refine Run.Ends.bind hp fun r hr => ends_ofExcept fun fault hfault => ?_
  cases r with
  | failure m s => cases hfault
  | success v rest =>
    rw [Result.map] at hfault
    cases hv : f v with
    | ok w =>
      rw [hv] at hfault
      cases hfault
    | error fault' =>
      rw [hv] at hfault
      cases hfault
      exact hf v rest _ hr hv

theorem EndsOn.flatMap {next : Value → Except Fault Step} (hp : p.EndsOn E src)
    (hraise : ∀ v rest fault, p.Gives src (.success v rest) → next v = .error fault → E fault)
    (hnext : ∀ v rest k, p.Gives src (.success v rest) → next v = .ok k → k.EndsOn E rest) :
    (flatMap p next).EndsOn E src := by
  refine Run.Ends.bind hp fun r hr => ?_
  cases r with
  | failure m s => exact ends_pure _
  | success v rest =>
    refine Run.Ends.bind (ends_ofExcept fun fault => hraise v rest fault hr) fun k hk => ?_
    exact hnext v rest k hr (ending_ofExcept_eq_value.1 hk)

theorem EndsOn.orElse (hp : p.EndsOn E src) (hq : q.EndsOn E src) : (orElse p q).EndsOn E src := by
  refine Run.Ends.bind hp fun r _ => ?_
  cases r with
  | success v rest => exact ends_pure _
  | failure m s => exact hq

/-- A loop ends if an iteration ends wherever the loop may get to. -/
theorem ends_iterate {I : Text → Prop} (hp : ∀ mid, I mid → p.EndsOn E mid)
    (hnext : ∀ mid v rest, I mid → p.Gives mid (.success v rest) → rest.length < mid.length →
      I rest) (hsrc : I src) : (iterate p src).Ends E := by
  induction hn : src.length using Nat.strongRecOn generalizing src with
  | ind n ih =>
    subst hn
    rw [iterate]
    refine (hp src hsrc).bind fun r hr => ?_
    cases r with
    | failure m s => exact ends_pure _
    | success v rest =>
      by_cases hlt : rest.length < src.length
      · simp only [hlt, if_true]
        exact (ih _ hlt (hnext src v rest hsrc hr hlt) rfl).bind fun _ _ => ends_pure _
      · simp only [hlt, if_false]
        exact ends_pure _

theorem ends_iterate_of_length_lt (hp : p.EndsOn E src)
    (hshorter : ∀ mid : Text, mid.length < src.length → p.EndsOn E mid) :
    (iterate p src).Ends E := by
  refine ends_iterate (I := fun mid => mid = src ∨ mid.length < src.length) ?_ ?_ (.inl rfl)
  · rintro mid (rfl | hlt)
    · exact hp
    · exact hshorter mid hlt
  · rintro mid v rest (rfl | hlt) - hrest
    · exact .inr hrest
    · exact .inr (hrest.trans hlt)

theorem endsOn_many (h : (iterate p src).Ends E) : (many p).EndsOn E src :=
  h.bind fun _ _ => ends_pure _

theorem EndsOn.nonempty (hp : p.EndsOn E src) : (nonempty p).EndsOn E src := by
  refine Run.Ends.bind hp fun r _ => ?_
  split
  · exact ends_pure _
  · exact ends_pure _

theorem EndsOn.optional (hp : p.EndsOn E src) : (optional p).EndsOn E src := by
  refine Run.Ends.bind hp fun r _ => ?_
  cases r <;> exact ends_pure _

theorem endsOn_sepBy (hleaves : content.LeavesEnd) (hleaves' : separator.LeavesEnd)
    (hcontent : content.EndsOn E src)
    (hshorter : ∀ mid : Text, mid.length < src.length → content.EndsOn E mid)
    (hshorter' : ∀ mid : Text, mid.length < src.length → separator.EndsOn E mid)
    (hseparator : content.Stalls → separator.EndsOn E src) :
    (sepBy content separator).EndsOn E src := by
  -- a separator with a content behind it
  let pair : Step := Step.flatMap separator fun _ => .ok content
  have hshorter_pair (mid : Text) (hlt : mid.length < src.length) : pair.EndsOn E mid := by
    refine (hshorter' mid hlt).flatMap nofun fun v rest k hgives hk => ?_
    cases hk
    exact hshorter rest (Nat.lt_of_le_of_lt (hleaves' hgives).length_le hlt)
  have hpair (hstalls : content.Stalls) : pair.EndsOn E src := by
    refine (hseparator hstalls).flatMap nofun fun v rest k hgives hk => ?_
    cases hk
    exact endsOn_after hleaves' hgives hshorter fun _ => hcontent
  refine Run.Ends.bind hcontent fun r hr => ?_
  cases r with
  | failure m s => exact ends_pure _
  | success v rest =>
    simp only [separated_eq_iterate]
    have hle := (hleaves hr).length_le
    have hrest : pair.EndsOn E rest := endsOn_after hleaves hr hshorter_pair hpair
    have hloop : (iterate pair rest).Ends E :=
      ends_iterate_of_length_lt hrest fun mid hmid => hshorter_pair mid (by omega)
    exact hloop.bind fun _ _ => ends_pure _

theorem ends_collect_cons (hp : p.EndsOn E src)
    (hps : ∀ v rest, p.Gives src (.success v rest) → (collect ps rest).Ends E) :
    (collect (p :: ps) src).Ends E := by
  refine Run.Ends.bind hp fun r hr => ?_
  cases r with
  | failure m s => exact ends_pure _
  | success v rest =>
    refine (hps v rest hr).bind fun e _ => ?_
    split
    · exact ends_pure _
    · exact ends_pure _

/-- Below a length at which all steps end, so does running them in a row. -/
theorem ends_collect_of_length_lt {n : Nat} (hleaves : ∀ p ∈ ps, p.LeavesEnd)
    (hps : ∀ p ∈ ps, ∀ mid : Text, mid.length < n → p.EndsOn E mid) (hsrc : src.length < n) :
    (collect ps src).Ends E := by
  induction ps generalizing src with
  | nil => exact ends_pure _
  | cons p ps ih =>
    obtain ⟨hp, hps⟩ := List.forall_mem_cons.1 hps
    obtain ⟨hpleaves, hleaves⟩ := List.forall_mem_cons.1 hleaves
    refine ends_collect_cons (hp src hsrc) fun v rest hgives => ?_
    exact ih hleaves hps (Nat.lt_of_le_of_lt (hpleaves hgives).length_le hsrc)

/-- A step in a row stands before the whole input only if all steps before it have stalled. -/
theorem ends_collect (hleaves : ∀ p ∈ ps, p.LeavesEnd)
    (hshorter : ∀ p ∈ ps, ∀ mid : Text, mid.length < src.length → p.EndsOn E mid)
    (hfirst : ∀ before p after, ps = before ++ p :: after → (∀ q ∈ before, q.Stalls) →
      p.EndsOn E src) : (collect ps src).Ends E := by
  induction ps with
  | nil => exact ends_pure _
  | cons p ps ih =>
    obtain ⟨-, hshorter⟩ := List.forall_mem_cons.1 hshorter
    obtain ⟨hp, hleaves⟩ := List.forall_mem_cons.1 hleaves
    refine ends_collect_cons (hfirst [] p ps rfl (by simp)) fun v rest hgives => ?_
    have hsuffix := hp hgives
    by_cases hlt : rest.length < src.length
    · exact ends_collect_of_length_lt hleaves hshorter hlt
    · have hle : src.length ≤ rest.length := Nat.le_of_not_lt hlt
      have hstalls : p.Stalls := ⟨src, v, rest, hgives, hle⟩
      rw [hsuffix.eq_of_length_le hle]
      refine ih hleaves hshorter fun before q after hps hbefore => ?_
      exact hfirst (p :: before) q after (by rw [hps]; rfl)
        (List.forall_mem_cons.2 ⟨hstalls, hbefore⟩)

theorem endsOn_seq (h : (collect ps src).Ends E) : (seq ps).EndsOn E src := by
  refine h.bind fun e _ => ?_
  split
  · exact ends_pure _
  · exact ends_pure _

theorem ends_firstOf (hps : ∀ p ∈ ps, p.EndsOn E src) (r : Result) :
    (firstOf r ps src).Ends E := by
  induction ps generalizing r with
  | nil => exact ends_pure _
  | cons p ps ih =>
    obtain ⟨hp, hps⟩ := List.forall_mem_cons.1 hps
    refine Run.Ends.bind hp fun r' _ => ?_
    cases r' with
    | failure m s => exact ih hps _
    | success v rest => exact ends_pure _

theorem endsOn_oneOf (hps : ∀ p ∈ ps, p.EndsOn E src) : (oneOf ps).EndsOn E src :=
  ends_firstOf hps _

theorem EndsOn.lookahead (hp : p.EndsOn E src) : (lookahead p).EndsOn E src := by
  refine Run.Ends.bind hp fun r _ => ?_
  cases r <;> exact ends_pure _

end Step

end Parselet
