import Parselet.Proofs.Step.Within

/-!
Steps that succeed without consuming anything. Where a combined step does so, some or all of its
parts do.
-/

namespace Parselet

namespace Step

variable {p q content separator : Step} {ps : List Step} {src rest : Text} {v : Value}

/-- The step succeeds on some input without consuming anything of it. -/
def Stalls (p : Step) : Prop :=
  ∃ src v rest, p.Gives src (.success v rest) ∧ src.length ≤ rest.length

theorem not_stalls_fail (m : Text) : ¬ (fail m).Stalls := by
  rintro ⟨src, v, rest, h, -⟩
  cases gives_fail.1 h

theorem not_stalls_raise (fault : Fault) : ¬ (raise fault).Stalls := by
  rintro ⟨src, v, rest, h, -⟩
  exact not_gives_raise h

theorem not_stalls_satisfy (accepts : CodePoint → Bool) (m : Text) :
    ¬ (satisfy accepts m).Stalls := by
  rintro ⟨src, v, rest, h, hle⟩
  obtain ⟨c, rfl, -⟩ := gives_satisfy_success.1 h
  exact Nat.not_succ_le_self _ hle

theorem eq_nil_of_stalls_string {t : Text} (h : (string t).Stalls) : t = [] := by
  obtain ⟨src, v, rest, h, hle⟩ := h
  obtain ⟨rfl, -⟩ := gives_string_success.1 h
  rw [List.length_append] at hle
  exact List.eq_nil_of_length_eq_zero (by omega)

theorem eq_nil_of_stalls_anycase {t : Text} (h : (anycase t).Stalls) : t = [] := by
  obtain ⟨src, v, rest, h, hle⟩ := h
  unfold Gives anycase at h
  split at h
  · next hlike =>
    cases h
    rw [beginsLike, Bool.and_eq_true, decide_eq_true_eq] at hlike
    rw [List.length_drop] at hle
    exact List.eq_nil_of_length_eq_zero (by omega)
  · exact absurd h (literalFailure_fails _ _ _).not_success

theorem matches_nothing_of_stalls_regex {m : Matcher} (h : (regex m).Stalls) :
    ∃ src, m.match? src = some ([], src) := by
  obtain ⟨src, v, rest, h, hle⟩ := h
  unfold Gives regex at h
  split at h
  · next found left hmatch =>
    cases h
    have happend := m.append_of_match hmatch
    have hnil : found = [] := by
      rw [← happend, List.length_append] at hle
      exact List.eq_nil_of_length_eq_zero (by omega)
    subst hnil
    exact ⟨src, by rw [hmatch, ← happend, List.nil_append]⟩
  · split at h
    · cases gives_fail.1 h
    · cases gives_fail.1 h

theorem Stalls.of_map {f : Value → Except Fault Value} (h : (map p f).Stalls) : p.Stalls := by
  obtain ⟨src, v, rest, h, hle⟩ := h
  obtain ⟨w, hw, -⟩ := gives_map_success.1 h
  exact ⟨src, w, rest, hw, hle⟩

/-- Both steps have to stall, as neither leaves more than it is given. -/
theorem Stalls.of_flatMap {next : Value → Except Fault Step} (hp : p.LeavesEnd)
    (hnext : ∀ v k, next v = .ok k → k.LeavesEnd) (h : (flatMap p next).Stalls) :
    p.Stalls ∧ ∃ v k, next v = .ok k ∧ k.Stalls := by
  obtain ⟨src, v, rest, h, hle⟩ := h
  obtain ⟨w, mid, k, hw, hk, h⟩ := gives_flatMap_success.1 h
  have hmid := (hp hw).length_le
  have hrest := (hnext w k hk h).length_le
  exact ⟨⟨src, w, mid, hw, by omega⟩, w, k, hk, mid, v, rest, h, by omega⟩

theorem Stalls.of_orElse (h : (orElse p q).Stalls) : p.Stalls ∨ q.Stalls := by
  obtain ⟨src, v, rest, h, hle⟩ := h
  rcases gives_orElse_success.1 h with h | ⟨-, h⟩
  · exact .inl ⟨src, v, rest, h, hle⟩
  · exact .inr ⟨src, v, rest, h, hle⟩

theorem Stalls.of_nonempty (h : (nonempty p).Stalls) :
    ∃ src v rest, p.Gives src (.success v rest) ∧ v ≠ .list [] ∧ src.length ≤ rest.length := by
  obtain ⟨src, v, rest, h, hle⟩ := h
  obtain ⟨h, hne⟩ := gives_nonempty_success.1 h
  exact ⟨src, v, rest, h, hne, hle⟩

/-- Every iteration that counts consumes something. -/
theorem length_lt_of_gives_many (hp : p.LeavesEnd)
    (h : (many p).Gives src (.success v rest)) (hne : v ≠ .list []) :
    rest.length < src.length := by
  obtain ⟨vs, rfl, hvs⟩ := gives_many_success.1 h
  cases hvs with
  | fails => exact absurd rfl hne
  | stalls => exact absurd rfl hne
  | next hv hlt hvs =>
    have hle := (hp.repeats hvs).length_le
    omega

/-- Behind a content that consumes something, at least that much is consumed. -/
theorem stalls_of_gives_sepBy (hcontent : content.LeavesEnd) (hseparator : separator.LeavesEnd)
    (h : (sepBy content separator).Gives src (.success v rest)) (hne : v ≠ .list [])
    (hle : src.length ≤ rest.length) : content.Stalls := by
  rcases gives_sepBy_success.1 h with ⟨-, rfl, -⟩ | ⟨w, mid, vs, hw, -, hvs⟩
  · exact absurd rfl hne
  · have hpair : (Step.flatMap separator fun _ => .ok content).LeavesEnd := by
      refine hseparator.flatMap fun v k hk => ?_
      cases hk
      exact hcontent
    have hrest := (hpair.repeats hvs).length_le
    exact ⟨src, w, mid, hw, by omega⟩

theorem Stalls.of_seq (hps : ∀ p ∈ ps, p.LeavesEnd) (h : (seq ps).Stalls) :
    ∀ p ∈ ps, p.Stalls := by
  induction ps with
  | nil => simp
  | cons p ps ih =>
    obtain ⟨hp, hps⟩ := List.forall_mem_cons.1 hps
    obtain ⟨src, v, rest, h, hle⟩ := h
    obtain ⟨w, mid, ws, hw, hws, -⟩ := gives_seq_cons.1 h
    have hmid := (hp hw).length_le
    have hrest := (LeavesEnd.seq hps hws).length_le
    refine List.forall_mem_cons.2 ⟨⟨src, w, mid, hw, by omega⟩, ih hps ?_⟩
    exact ⟨mid, _, rest, hws, by omega⟩

theorem Stalls.of_oneOf (h : (oneOf ps).Stalls) : ∃ p ∈ ps, p.Stalls := by
  induction ps with
  | nil =>
    obtain ⟨src, v, rest, h, -⟩ := h
    exact absurd h not_gives_oneOf_nil
  | cons p ps ih =>
    obtain ⟨src, v, rest, h, hle⟩ := h
    rcases gives_oneOf_cons.1 h with h | ⟨-, h⟩
    · exact ⟨p, by simp, src, v, rest, h, hle⟩
    · obtain ⟨q, hq, hstalls⟩ := ih ⟨src, v, rest, h, hle⟩
      exact ⟨q, List.mem_cons_of_mem p hq, hstalls⟩

theorem Stalls.of_custom {f : Text → Except Fault Result}
    (hf : ∀ src v rest, f src = .ok (.success v rest) → rest <:+ src)
    (h : Stalls fun src => Run.ofExcept (f src)) : ∃ src v, f src = .ok (.success v src) := by
  obtain ⟨src, v, rest, h, hle⟩ := h
  have hok := Run.ending_ofExcept_eq_value.1 h
  have hsuffix := hf src v rest hok
  exact ⟨src, v, by rw [hok, hsuffix.eq_of_length_le hle]⟩

end Step

end Parselet
