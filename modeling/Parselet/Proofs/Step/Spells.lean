import Parselet.Proofs.Step.Gives

/-!
Steps whose values spell what they consume. How a value spells a text is left open: it may be the
text, or a list of texts that make it up when joined.
-/

namespace Parselet

/-- A way in which values spell texts. -/
abbrev Spelling := Value → Text → Prop

namespace Step

variable {p q : Step} {ps : List Step} {S R : Spelling} {src rest : Text}

/-- Every success has consumed just the text that its value spells. -/
def Spells (S : Spelling) (p : Step) : Prop :=
  ∀ ⦃src : Text⦄ ⦃v : Value⦄ ⦃rest : Text⦄,
    p.Gives src (.success v rest) → ∃ t, S v t ∧ t ++ rest = src

theorem Spells.mono (hp : p.Spells S) (h : ∀ v t, S v t → R v t) : p.Spells R := by
  intro src v rest hgives
  obtain ⟨t, ht, happend⟩ := hp hgives
  exact ⟨t, h v t ht, happend⟩

/-! ## Steps that look at the input themselves -/

theorem spells_satisfy {accepts : CodePoint → Bool} {m : Text}
    (h : ∀ c, accepts c = true → S (.text [c]) [c]) : (satisfy accepts m).Spells S := by
  intro src v rest hgives
  obtain ⟨c, rfl, hc, rfl⟩ := gives_satisfy_success.1 hgives
  exact ⟨[c], h c hc, rfl⟩

theorem spells_string {t : Text} (h : S (.text t) t) : (string t).Spells S := by
  intro src v rest hgives
  obtain ⟨rfl, rfl⟩ := gives_string_success.1 hgives
  exact ⟨t, h, rfl⟩

/-- The value is cut from the input; only the comparison is made in lower case. -/
theorem spells_anycase {t : Text} (h : ∀ found, S (.text found) found) : (anycase t).Spells S := by
  intro src v rest hgives
  obtain ⟨-, rfl, rfl⟩ := gives_anycase_success.1 hgives
  exact ⟨_, h _, List.take_append_drop t.length src⟩

theorem spells_regex {m : Matcher} (h : ∀ found, S (.text found) found) :
    (regex m).Spells S := by
  intro src v rest hgives
  unfold Gives regex at hgives
  split at hgives
  · next found left hmatch =>
    -- a match begins where the input does, so there is nothing in front of it
    cases hgives
    exact ⟨_, h _, m.append_of_match hmatch⟩
  · simp only at hgives
    split at hgives <;> cases hgives

/-! ## Steps made from others -/

theorem Spells.map {f : Value → Except Fault Value} (hp : p.Spells S)
    (hf : ∀ v t w, S v t → f v = .ok w → R w t) : (map p f).Spells R := by
  intro src w rest hgives
  obtain ⟨v, hv, hw⟩ := gives_map_success.1 hgives
  obtain ⟨t, ht, happend⟩ := hp hv
  exact ⟨t, hf v t w ht hw, happend⟩

theorem Spells.orElse (hp : p.Spells S) (hq : q.Spells S) : (orElse p q).Spells S := by
  intro src v rest hgives
  rcases gives_orElse_success.1 hgives with hgives | ⟨-, hgives⟩
  · exact hp hgives
  · exact hq hgives

theorem Spells.oneOf (hps : ∀ p ∈ ps, p.Spells S) : (oneOf ps).Spells S := by
  induction ps with
  | nil => exact fun src v rest hgives => absurd hgives not_gives_oneOf_nil
  | cons p ps ih =>
    obtain ⟨hp, hps⟩ := List.forall_mem_cons.1 hps
    intro src v rest hgives
    rcases gives_oneOf_cons.1 hgives with hgives | ⟨-, hgives⟩
    · exact hp hgives
    · exact ih hps hgives

theorem Spells.optional (hp : p.Spells S) (habsent : S .absent []) : (optional p).Spells S := by
  intro src v rest hgives
  rcases gives_optional_success.1 hgives with hgives | ⟨-, rfl, rfl⟩
  · exact hp hgives
  · exact ⟨[], habsent, rfl⟩

/-- The last iteration, which fails or consumes nothing, is dropped with its value. -/
theorem Spells.repeats (hp : p.Spells S) {vs : List Value} (h : p.Repeats src vs rest) :
    ∃ ts, List.Forall₂ S vs ts ∧ ts.flatten ++ rest = src := by
  induction h with
  | fails | stalls => exact ⟨[], .nil, rfl⟩
  | next hgives _ _ ih =>
    obtain ⟨t, ht, rfl⟩ := hp hgives
    obtain ⟨ts, hts, rfl⟩ := ih
    exact ⟨t :: ts, .cons ht hts, by rw [List.flatten_cons, List.append_assoc]⟩

theorem Spells.many (hp : p.Spells S)
    (h : ∀ vs ts, List.Forall₂ S vs ts → R (.list vs) ts.flatten) : (many p).Spells R := by
  intro src v rest hgives
  obtain ⟨vs, rfl, hvs⟩ := gives_many_success.1 hgives
  obtain ⟨ts, hts, happend⟩ := hp.repeats hvs
  exact ⟨ts.flatten, h vs ts hts, happend⟩

theorem Spells.nonempty (hp : p.Spells S) : (nonempty p).Spells S :=
  fun _ _ _ hgives => hp (gives_nonempty_success.1 hgives).1

theorem spells_seq_nil (h : S (.tuple []) []) : (seq []).Spells S := by
  intro src v rest hgives
  obtain ⟨rfl, rfl⟩ := gives_seq_nil.1 hgives
  exact ⟨[], h, rfl⟩

theorem Spells.seq_cons (hp : p.Spells S) (hps : (seq ps).Spells R) {S' : Spelling}
    (h : ∀ v t vs u, S v t → R (.tuple vs) u → S' (.tuple (v :: vs)) (t ++ u)) :
    (seq (p :: ps)).Spells S' := by
  intro src v rest hgives
  obtain ⟨w, mid, ws, hw, hws, rfl⟩ := gives_seq_cons.1 hgives
  obtain ⟨t, ht, rfl⟩ := hp hw
  obtain ⟨u, hu, rfl⟩ := hps hws
  exact ⟨t ++ u, h w t ws u ht hu, List.append_assoc t u rest⟩

theorem Spells.seq (hps : ∀ p ∈ ps, p.Spells S)
    (h : ∀ vs ts, List.Forall₂ S vs ts → R (.tuple vs) ts.flatten) : (seq ps).Spells R := by
  have hrow : (Step.seq ps).Spells fun v t =>
      ∃ vs ts, v = .tuple vs ∧ t = ts.flatten ∧ List.Forall₂ S vs ts := by
    clear h
    induction ps with
    | nil => exact spells_seq_nil ⟨[], [], rfl, rfl, .nil⟩
    | cons p ps ih =>
      obtain ⟨hp, hps⟩ := List.forall_mem_cons.1 hps
      refine hp.seq_cons (ih hps) ?_
      rintro v t vs _ ht ⟨_, ts, ⟨⟩, rfl, hts⟩
      exact ⟨v :: vs, t :: ts, rfl, rfl, .cons ht hts⟩
  refine hrow.mono ?_
  rintro _ _ ⟨vs, ts, rfl, rfl, hts⟩
  exact h vs ts hts

end Step

end Parselet
