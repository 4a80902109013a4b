import Mathlib.Data.List.Infix
import Parselet.Proofs.Step.Gives

/-!
Steps stay within their input: what they leave, and the place where they fail, is an end of it.
-/

namespace Parselet

/-- The result leaves an end of `src`, or records an end of `src` as the place of the failure. -/
def Result.Within (src : Text) : Result → Prop
  | success _ rest => rest <:+ src
  | failure _ s => ∃ t, s = some t ∧ t <:+ src

theorem Result.Within.trans {r : Result} {src mid : Text} (h : r.Within mid) (hmid : mid <:+ src) :
    r.Within src := by
  cases r with
  | success v rest => exact List.IsSuffix.trans h hmid
  | failure m s =>
    obtain ⟨t, rfl, ht⟩ := h
    exact ⟨t, rfl, ht.trans hmid⟩

namespace Step

variable {p q content separator : Step} {ps : List Step} {src rest : Text} {r : Result}

/-- Every success of the step leaves an end of the input. -/
def LeavesEnd (p : Step) : Prop :=
  ∀ ⦃src : Text⦄ ⦃v : Value⦄ ⦃rest : Text⦄, p.Gives src (.success v rest) → rest <:+ src

/-- Every result of the step stays within the input. -/
def StaysWithin (p : Step) : Prop := ∀ src r, p.Gives src r → r.Within src

theorem StaysWithin.suffix {v : Value} (h : p.StaysWithin) (hp : p.Gives src (.success v rest)) :
    rest <:+ src := h src _ hp

theorem StaysWithin.leavesEnd (h : p.StaysWithin) : p.LeavesEnd := fun _ _ _ hp => h.suffix hp

/-- It is enough to look at successes and failures apart. -/
theorem staysWithin_of (hs : p.LeavesEnd)
    (hf : ∀ src m s, p.Gives src (.failure m s) → Result.Within src (.failure m s)) :
    p.StaysWithin := by
  intro src r h
  cases r with
  | success v rest => exact hs h
  | failure m s => exact hf src m s h

theorem staysWithin_pure (v : Value) : (pure v).StaysWithin := by
  intro src r h
  cases gives_pure.1 h
  exact List.suffix_refl src

theorem staysWithin_fail (m : Text) : (fail m).StaysWithin := by
  intro src r h
  cases gives_fail.1 h
  exact ⟨src, rfl, List.suffix_refl src⟩

theorem staysWithin_raise (fault : Fault) : (raise fault).StaysWithin :=
  fun _ _ h => absurd h not_gives_raise

theorem staysWithin_eof : eof.StaysWithin := by
  intro src r h
  cases src with
  | nil =>
    cases h
    exact List.suffix_refl []
  | cons c t => exact staysWithin_fail _ _ _ h

theorem staysWithin_satisfy (accepts : CodePoint → Bool) (m : Text) :
    (satisfy accepts m).StaysWithin := by
  intro src r h
  cases src with
  | nil => exact staysWithin_fail _ _ _ h
  | cons c t =>
    by_cases hc : accepts c = true
    · rw [Gives, satisfy, if_pos hc] at h
      cases h
      exact List.suffix_cons c t
    · rw [Gives, satisfy, if_neg hc] at h
      exact staysWithin_fail _ _ _ h

theorem staysWithin_literalFailure (t expected : Text) :
    (literalFailure t expected).StaysWithin := by
  intro src r h
  unfold Gives literalFailure at h
  split at h
  · exact staysWithin_fail _ _ _ h
  · exact staysWithin_fail _ _ _ h

theorem staysWithin_string (t : Text) : (string t).StaysWithin := by
  intro src r h
  unfold Gives string at h
  split at h
  · cases h
    exact List.drop_suffix t.length src
  · exact staysWithin_literalFailure _ _ _ _ h

theorem staysWithin_anycase (t : Text) : (anycase t).StaysWithin := by
  intro src r h
  unfold Gives anycase at h
  split at h
  · cases h
    exact List.drop_suffix t.length src
  · exact staysWithin_literalFailure _ _ _ _ h

theorem staysWithin_regex (m : Matcher) : (regex m).StaysWithin := by
  intro src r h
  unfold Gives regex at h
  split at h
  · next found rest hmatch =>
    cases h
    exact ⟨found, m.append_of_match hmatch⟩
  · split at h
    · exact staysWithin_fail _ _ _ h
    · exact staysWithin_fail _ _ _ h

theorem staysWithin_custom {f : Text → Except Fault Result}
    (hf : ∀ src r, f src = .ok r → r.Within src) :
    StaysWithin fun src => Run.ofExcept (f src) :=
  fun src r h => hf src r (Run.ending_ofExcept_eq_value.1 h)

theorem leavesEnd_custom {f : Text → Except Fault Result}
    (hf : ∀ src v rest, f src = .ok (.success v rest) → rest <:+ src) :
    LeavesEnd fun src => Run.ofExcept (f src) :=
  fun src v rest h => hf src v rest (Run.ending_ofExcept_eq_value.1 h)

/-! ## Steps made from others -/

theorem LeavesEnd.map (hp : p.LeavesEnd) (f : Value → Except Fault Value) :
    (map p f).LeavesEnd := by
  intro src v rest h
  obtain ⟨w, hw, -⟩ := gives_map_success.1 h
  exact hp hw

theorem StaysWithin.map (hp : p.StaysWithin) (f : Value → Except Fault Value) :
    (map p f).StaysWithin :=
  staysWithin_of (hp.leavesEnd.map f) fun src _ _ h => hp src _ (gives_map_failure.1 h)

theorem LeavesEnd.flatMap {next : Value → Except Fault Step} (hp : p.LeavesEnd)
    (hnext : ∀ v k, next v = .ok k → k.LeavesEnd) : (flatMap p next).LeavesEnd := by
  intro src v rest h
  obtain ⟨w, mid, k, hw, hk, h⟩ := gives_flatMap_success.1 h
  exact (hnext w k hk h).trans (hp hw)

theorem StaysWithin.flatMap {next : Value → Except Fault Step} (hp : p.StaysWithin)
    (hnext : ∀ v k, next v = .ok k → k.StaysWithin) : (flatMap p next).StaysWithin := by
  refine staysWithin_of (hp.leavesEnd.flatMap fun v k hk => (hnext v k hk).leavesEnd)
    fun src m s h => ?_
  rcases gives_flatMap_failure.1 h with h | ⟨w, mid, k, hw, hk, h⟩
  · exact hp src _ h
  · exact (hnext w k hk mid _ h).trans (hp.suffix hw)

theorem LeavesEnd.orElse (hp : p.LeavesEnd) (hq : q.LeavesEnd) : (orElse p q).LeavesEnd := by
  intro src v rest h
  rcases gives_orElse_success.1 h with h | ⟨-, h⟩
  · exact hp h
  · exact hq h

theorem StaysWithin.orElse (hp : p.StaysWithin) (hq : q.StaysWithin) :
    (orElse p q).StaysWithin :=
  staysWithin_of (hp.leavesEnd.orElse hq.leavesEnd)
    fun src _ _ h => hq src _ (gives_orElse_failure.1 h).2

theorem LeavesEnd.repeats (hp : p.LeavesEnd) {vs : List Value} (h : p.Repeats src vs rest) :
    rest <:+ src := by
  induction h with
  | fails | stalls => exact List.suffix_refl _
  | next h _ _ ih => exact ih.trans (hp h)

theorem LeavesEnd.many (hp : p.LeavesEnd) : (many p).LeavesEnd := by
  intro src v rest h
  obtain ⟨vs, -, hvs⟩ := gives_many_success.1 h
  exact hp.repeats hvs

theorem StaysWithin.many (hp : p.StaysWithin) : (many p).StaysWithin :=
  staysWithin_of hp.leavesEnd.many fun _ m s h => absurd ⟨m, s, h⟩ many_never_fails

theorem LeavesEnd.nonempty (hp : p.LeavesEnd) : (nonempty p).LeavesEnd :=
  fun _ _ _ h => hp (gives_nonempty_success.1 h).1

theorem StaysWithin.nonempty (hp : p.StaysWithin) : (nonempty p).StaysWithin := by
  refine staysWithin_of hp.leavesEnd.nonempty fun src m s h => ?_
  rcases gives_nonempty_failure.1 h with h | ⟨-, -, rfl⟩
  · exact hp src _ h
  · exact ⟨src, rfl, List.suffix_refl src⟩

theorem LeavesEnd.optional (hp : p.LeavesEnd) : (optional p).LeavesEnd := by
  intro src v rest h
  rcases gives_optional_success.1 h with h | ⟨-, -, rfl⟩
  · exact hp h
  · exact List.suffix_refl _

theorem StaysWithin.optional (hp : p.StaysWithin) : (optional p).StaysWithin :=
  staysWithin_of hp.leavesEnd.optional fun _ m s h => absurd ⟨m, s, h⟩ optional_never_fails

theorem LeavesEnd.sepBy (hcontent : content.LeavesEnd) (hseparator : separator.LeavesEnd) :
    (sepBy content separator).LeavesEnd := by
  have hpair : (Step.flatMap separator fun _ => .ok content).LeavesEnd := by
    refine hseparator.flatMap fun v k hk => ?_
    cases hk
    exact hcontent
  intro src v rest h
  rcases gives_sepBy_success.1 h with ⟨-, -, rfl⟩ | ⟨w, mid, vs, hw, -, hvs⟩
  · exact List.suffix_refl _
  · exact (hpair.repeats hvs).trans (hcontent hw)

theorem StaysWithin.sepBy (hcontent : content.StaysWithin) (hseparator : separator.StaysWithin) :
    (sepBy content separator).StaysWithin :=
  staysWithin_of (hcontent.leavesEnd.sepBy hseparator.leavesEnd)
    fun _ m s h => absurd ⟨m, s, h⟩ sepBy_never_fails

/-- A sequence leaves what its last part leaves. -/
theorem LeavesEnd.seq (hps : ∀ p ∈ ps, p.LeavesEnd) : (seq ps).LeavesEnd := by
  induction ps with
  | nil =>
    intro src v rest h
    rw [(gives_seq_nil.1 h).2]
  | cons p ps ih =>
    obtain ⟨hp, hps⟩ := List.forall_mem_cons.1 hps
    intro src v rest h
    obtain ⟨w, mid, ws, hw, hws, -⟩ := gives_seq_cons.1 h
    exact (ih hps hws).trans (hp hw)

/-- A sequence fails where one part fails. -/
theorem StaysWithin.seq (hps : ∀ p ∈ ps, p.StaysWithin) : (seq ps).StaysWithin := by
  refine staysWithin_of (LeavesEnd.seq fun p hp => (hps p hp).leavesEnd) ?_
  induction ps with
  | nil => exact fun src m s h => absurd ⟨m, s, h⟩ not_fails_seq_nil
  | cons p ps ih =>
    obtain ⟨hp, hps⟩ := List.forall_mem_cons.1 hps
    intro src m s h
    rcases gives_seq_cons_failure.1 h with h | ⟨w, mid, hw, h⟩
    · exact hp src _ h
    · exact (ih hps mid m s h).trans (hp.suffix hw)

theorem LeavesEnd.oneOf (hps : ∀ p ∈ ps, p.LeavesEnd) : (oneOf ps).LeavesEnd := by
  induction ps with
  | nil => exact fun src v rest h => absurd h not_gives_oneOf_nil
  | cons p ps ih =>
    obtain ⟨hp, hps⟩ := List.forall_mem_cons.1 hps
    intro src v rest h
    rcases gives_oneOf_cons.1 h with h | ⟨-, h⟩
    · exact hp h
    · exact ih hps h

/-- The failure of a choice is that of its last alternative. -/
theorem StaysWithin.firstOf (hps : ∀ p ∈ ps, p.StaysWithin) {r₀ : Result} (hr₀ : r₀.Within src)
    (h : (firstOf r₀ ps).Gives src r) : r.Within src := by
  induction ps generalizing r₀ with
  | nil =>
    cases h
    exact hr₀
  | cons p ps ih =>
    obtain ⟨hp, hps⟩ := List.forall_mem_cons.1 hps
    rw [Gives, Step.firstOf, bind_gives_iff] at h
    rcases h with ⟨v, rest, hv, h⟩ | ⟨m, s, hs, h⟩
    · cases h
      exact hp src _ hv
    · exact ih hps (hp src _ hs) h

theorem StaysWithin.oneOf (hps : ∀ p ∈ ps, p.StaysWithin) : (oneOf ps).StaysWithin := by
  intro src r h
  have hfirst : Result.Within src (.failure [] (some src)) := ⟨src, rfl, List.suffix_refl src⟩
  exact StaysWithin.firstOf hps hfirst h

theorem leavesEnd_lookahead (p : Step) : (lookahead p).LeavesEnd := by
  intro src v rest h
  rw [(gives_lookahead_success.1 h).1]

theorem StaysWithin.lookahead (hp : p.StaysWithin) : (lookahead p).StaysWithin :=
  staysWithin_of (leavesEnd_lookahead p) fun src _ _ h => hp src _ (gives_lookahead_failure.1 h)

theorem leavesEnd_inverted (limit : Limit) (p : Step) : (inverted limit p).LeavesEnd := by
  intro src v rest h
  rw [(gives_inverted_success.1 h).2.2]

theorem staysWithin_inverted (limit : Limit) (p : Step) : (inverted limit p).StaysWithin := by
  refine staysWithin_of (leavesEnd_inverted limit p) fun src m s h => ?_
  obtain ⟨v, rest, t, -, -, -, rfl⟩ := gives_inverted_failure.1 h
  exact ⟨src, rfl, List.suffix_refl src⟩

end Step

end Parselet
