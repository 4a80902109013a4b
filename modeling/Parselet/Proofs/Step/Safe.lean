import Parselet.Proofs.Step.Gives

/-!
Steps that are never given up, and the values they produce. A run that is cut off is no concern
here: what a step yields is what it would produce if it went on.
-/

namespace Parselet

namespace Run

variable {α β : Type} {r : Run α} {P : α → Prop} {Q : β → Prop}

/-- The run is not given up, and what it ends with satisfies `P`. -/
def Safe (P : α → Prop) (r : Run α) : Prop :=
  match r.ending with
  | .value a => P a
  | .raised _ => False
  | .unfinished => True

theorem Safe.of_value {a : α} (h : r.Safe P) (ha : r.ending = .value a) : P a := by
  simpa only [Safe, ha] using h

theorem Safe.not_raised (h : r.Safe P) (fault : Fault) : r.ending ≠ .raised fault := by
  intro hfault
  simp only [Safe, hfault] at h

theorem safe_pure {a : α} (h : P a) : (pure a : Run α).Safe P := h

theorem safe_ofExcept {e : Except Fault α} (h : ∃ a, e = .ok a ∧ P a) : (ofExcept e).Safe P := by
  obtain ⟨a, rfl, ha⟩ := h
  exact ha

theorem Safe.bind {next : α → Run β} (hr : r.Safe P) (hnext : ∀ a, P a → (next a).Safe Q) :
    (r >>= next).Safe Q := by
  cases h : r.ending with
  | value a =>
    simpa only [Safe, ending_bind_of_value h] using hnext a (hr.of_value h)
  | raised fault => exact absurd h (hr.not_raised fault)
  | unfinished => simp only [Safe, ending_bind_of_unfinished h]

theorem Safe.mono {P' : α → Prop} (hr : r.Safe P) (h : ∀ a, P a → P' a) : r.Safe P' := by
  cases hend : r.ending with
  | value a => simpa only [Safe, hend] using h a (hr.of_value hend)
  | raised fault => exact absurd hend (hr.not_raised fault)
  | unfinished => simp only [Safe, hend]

end Run

/-- The value of a success satisfies `Q`. -/
def Result.Holds (Q : Value → Prop) : Result → Prop
  | success v _ => Q v
  | failure _ _ => True

namespace Step

open Run

variable {p q content separator : Step} {ps : List Step} {Q R : Value → Prop} {src : Text}

/-- The step is never given up, and all its values satisfy `Q`. -/
def Yields (Q : Value → Prop) (p : Step) : Prop := ∀ src, (p src).Safe (Result.Holds Q)

/-- What comes after a step may rely on its value and on nothing else. -/
theorem Yields.bind {α : Type} {P : α → Prop} {next : Result → Run α} (hp : p.Yields Q)
    (hs : ∀ v rest, Q v → (next (.success v rest)).Safe P)
    (hf : ∀ m s, (next (.failure m s)).Safe P) : (p src >>= next).Safe P := by
  refine (hp src).bind fun r hr => ?_
  cases r with
  | success v rest => exact hs v rest hr
  | failure m s => exact hf m s

theorem Yields.mono (hp : p.Yields Q) (h : ∀ v, Q v → R v) : p.Yields R := by
  intro src
  refine (hp src).mono fun r hr => ?_
  cases r with
  | success v rest => exact h v hr
  | failure m s => trivial

theorem yields_pure {v : Value} (h : Q v) : (pure v).Yields Q := fun _ => h

theorem yields_fail (m : Text) : (fail m).Yields Q := fun _ => trivial

theorem yields_eof (h : Q .nothing) : eof.Yields Q := by
  intro src
  cases src with
  | nil => exact h
  | cons c t => trivial

theorem yields_satisfy {accepts : CodePoint → Bool} {m : Text}
    (h : ∀ c, accepts c = true → Q (.text [c])) : (satisfy accepts m).Yields Q := by
  intro src
  cases src with
  | nil => trivial
  | cons c t =>
    by_cases hc : accepts c = true
    · rw [satisfy, if_pos hc]
      exact h c hc
    · rw [satisfy, if_neg hc]
      trivial

theorem yields_literalFailure (t expected : Text) : (literalFailure t expected).Yields Q := by
  intro src
  unfold literalFailure
  split
  · trivial
  · trivial

theorem yields_string {t : Text} (h : Q (.text t)) : (string t).Yields Q := by
  intro src
  unfold string
  split
  · exact h
  · exact yields_literalFailure _ _ src

theorem yields_anycase {t : Text}
    (h : ∀ found : Text, found.length = t.length → found.lower = t.lower → Q (.text found)) :
    (anycase t).Yields Q := by
  intro src
  unfold anycase
  split
  · next hlike =>
    rw [beginsLike, Bool.and_eq_true, decide_eq_true_eq, decide_eq_true_eq] at hlike
    exact h _ (List.length_take_of_le hlike.1) hlike.2
  · exact yields_literalFailure _ _ src

theorem yields_regex {m : Matcher} (h : ∀ t, Q (.text t)) : (regex m).Yields Q := by
  intro src
  unfold regex
  split
  · exact h _
  · split
    · trivial
    · trivial

theorem Yields.map {f : Value → Except Fault Value} (hp : p.Yields Q)
    (hf : ∀ v, Q v → ∃ w, f v = .ok w ∧ R w) : (map p f).Yields R := by
  refine fun src => hp.bind (fun v rest hv => ?_) fun m s => trivial
  obtain ⟨w, hw, hR⟩ := hf v hv
  exact safe_ofExcept ⟨.success w rest, by rw [Result.map, hw]; rfl, hR⟩

theorem Yields.flatMap {next : Value → Except Fault Step} (hp : p.Yields Q)
    (hnext : ∀ v, Q v → ∃ k, next v = .ok k ∧ k.Yields R) : (flatMap p next).Yields R := by
  refine fun src => hp.bind (fun v rest hv => ?_) fun m s => trivial
  exact (safe_ofExcept (hnext v hv)).bind fun k hk => hk rest

theorem Yields.orElse (hp : p.Yields Q) (hq : q.Yields Q) : (orElse p q).Yields Q :=
  fun src => hp.bind (fun _ _ hv => hv) fun _ _ => hq src

theorem Yields.iterate (hp : p.Yields Q) (src : Text) :
    (iterate p src).Safe fun r => ∀ v ∈ r.1, Q v := by
  induction hn : src.length using Nat.strongRecOn generalizing src with
  | ind n ih =>
    subst hn
    rw [Step.iterate]
    have hnil : ∀ v ∈ ([] : List Value), Q v := by simp
    refine hp.bind (fun v rest hv => ?_) fun m s => hnil
    by_cases hlt : rest.length < src.length
    · simp only [hlt, if_true]
      refine (ih _ hlt rest rfl).bind fun r hr => ?_
      exact safe_pure (List.forall_mem_cons.2 ⟨hv, hr⟩)
    · simp only [hlt, if_false]
      exact hnil

theorem Yields.many (hp : p.Yields Q) (h : ∀ vs, (∀ v ∈ vs, Q v) → R (.list vs)) :
    (many p).Yields R :=
  fun src => (hp.iterate src).bind fun r hr => h r.1 hr

theorem Yields.nonempty (hp : p.Yields Q) : (nonempty p).Yields fun v => Q v ∧ v ≠ .list [] := by
  refine fun src => hp.bind (fun v rest hv => ?_) fun m s => trivial
  -- the match tells the empty list from all other values
  split
  · trivial
  · next hne => exact safe_pure ⟨hv, fun h => hne rest (by rw [h])⟩

theorem Yields.optional (hp : p.Yields Q) (habsent : Q .absent) : (optional p).Yields Q :=
  fun _ => hp.bind (fun _ _ hv => hv) fun _ _ => habsent

theorem Yields.sepBy (hcontent : content.Yields Q) (hseparator : separator.Yields R)
    {S : Value → Prop} (h : ∀ vs, (∀ v ∈ vs, Q v) → S (.list vs)) :
    (sepBy content separator).Yields S := by
  have hpair : (Step.flatMap separator fun _ => .ok content).Yields Q :=
    hseparator.flatMap fun _ _ => ⟨content, rfl, hcontent⟩
  refine fun src => hcontent.bind (fun v rest hv => ?_) fun m s => safe_pure (h [] (by simp))
  simp only [separated_eq_iterate]
  refine (hpair.iterate rest).bind fun r hr => ?_
  exact safe_pure (h _ (List.forall_mem_cons.2 ⟨hv, hr⟩))

/-- The values of steps in a row, each with the property of its step. -/
theorem safe_collect {Qs : List (Value → Prop)} (hps : List.Forall₂ (fun p Q => Yields Q p) ps Qs)
    (src : Text) :
    (collect ps src).Safe fun r =>
      ∀ vs rest, r = .ok (vs, rest) → List.Forall₂ (fun v Q => Q v) vs Qs := by
  induction hps generalizing src with
  | nil =>
    refine safe_pure ?_
    rintro vs rest ⟨⟩
    exact .nil
  | cons hp _ ih =>
    refine hp.bind (fun v rest hv => ?_) fun m s => safe_pure (by rintro vs rest ⟨⟩)
    refine (ih rest).bind fun r hr => ?_
    cases r with
    | error e => exact safe_pure (by rintro vs rest ⟨⟩)
    | ok r =>
      refine safe_pure ?_
      rintro vs rest ⟨⟩
      exact .cons hv (hr r.1 r.2 rfl)

theorem Yields.seq {Qs : List (Value → Prop)}
    (hps : List.Forall₂ (fun p Q => Yields Q p) ps Qs)
    (h : ∀ vs, List.Forall₂ (fun v Q => Q v) vs Qs → R (.tuple vs)) : (seq ps).Yields R := by
  refine fun src => (safe_collect hps src).bind fun r hr => ?_
  cases r with
  | error e => trivial
  | ok r => exact safe_pure (h r.1 (hr r.1 r.2 rfl))

theorem safe_firstOf (hps : ∀ p ∈ ps, p.Yields Q) {r : Result} (hr : r.Holds Q) (src : Text) :
    (firstOf r ps src).Safe (Result.Holds Q) := by
  induction ps generalizing r with
  | nil => exact hr
  | cons p ps ih =>
    obtain ⟨hp, hps⟩ := List.forall_mem_cons.1 hps
    exact hp.bind (fun _ _ hv => hv) fun m s => ih hps trivial

theorem Yields.oneOf (hps : ∀ p ∈ ps, p.Yields Q) : (oneOf ps).Yields Q := by
  intro src
  have hfirst : Result.Holds Q (.failure [] (some src)) := trivial
  exact safe_firstOf hps hfirst src

theorem Yields.lookahead (hp : p.Yields Q) : (lookahead p).Yields Q :=
  fun _ => hp.bind (fun _ _ hv => hv) fun _ _ => trivial

/-- A value that turns up against expectation has to be written. -/
theorem Yields.inverted {limit : Limit} (hp : p.Yields Q)
    (hwritten : ∀ v, Q v → ∃ t, v.written? limit = .ok t) (h : R .nothing) :
    (inverted limit p).Yields R := by
  refine fun src => hp.bind (fun v rest hv => ?_) fun m s => h
  obtain ⟨t, ht⟩ := hwritten v hv
  exact (safe_ofExcept ⟨t, ht, trivial⟩).bind fun _ (_ : True) => trivial

end Step

end Parselet
