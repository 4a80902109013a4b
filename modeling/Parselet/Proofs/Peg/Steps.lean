import Parselet.Proofs.Parser.Gives
import Parselet.Proofs.Peg.Outcomes

/-!
The outcomes of steps. Each combinator of steps does to outcomes what an operator of parsing
expressions does; the loops do so where they are not stopped for want of consumption.
-/

namespace Parselet.Step

variable {p q content separator : Step} {ps : List Step} {R S : Outcomes} {src rest m : Text}
  {v : Value} {vs : List Value} {o : Option Text} {accepts : CodePoint → Bool}

/-- What a step may do, apart from its values and messages. -/
def ends (p : Step) : Outcomes
  | src, some rest => ∃ v, p.Gives src (.success v rest)
  | src, none => p.Fails src

theorem Gives.ends (h : p.Gives src (.success v rest)) : p.ends src (some rest) := ⟨v, h⟩

theorem Fails.ends (h : p.Fails src) : p.ends src none := h

theorem ends_congr (hgives : ∀ src rest, (∃ v, p.Gives src (.success v rest)) ↔ R src (some rest))
    (hfails : ∀ src, p.Fails src ↔ R src none) : p.ends = R := by
  funext src o
  cases o with
  | none => exact propext (hfails src)
  | some rest => exact propext (hgives src rest)

theorem ends_satisfy : (satisfy accepts m).ends = Outcomes.char accepts := by
  refine ends_congr (fun src rest => ?_) fun src => ?_
  · simp only [gives_satisfy_success]
    cases src with
    | nil => simp [Outcomes.char]
    | cons c t =>
      by_cases hc : accepts c = true
      · simp only [Outcomes.char, hc, if_true, Option.some.injEq]
        grind
      · simp only [Outcomes.char, hc, Bool.false_eq_true, if_false]
        grind
  · rw [fails_satisfy]
    cases src with
    | nil => simp [Outcomes.char]
    | cons c t =>
      by_cases hc : accepts c = true
      · simp [Outcomes.char, hc]
      · simp [Outcomes.char, hc]

theorem ends_character {c : CodePoint} : (character c).ends = Outcomes.char (· = c) := ends_satisfy

theorem ends_eof : eof.ends = Outcomes.not (Outcomes.char fun _ => true) := by
  refine ends_congr (fun src rest => ?_) fun src => ?_
  · simp only [gives_eof_success]
    cases src with
    | nil => simp [Outcomes.not, Outcomes.char]
    | cons c t => simp [Outcomes.not, Outcomes.char]
  · rw [fails_eof]
    cases src with
    | nil => simp [Outcomes.not, Outcomes.char]
    | cons c t => simp [Outcomes.not, Outcomes.char]

theorem ends_map {f : Value → Except Fault Value} (hf : ∀ v, ∃ w, f v = .ok w) :
    (map p f).ends = p.ends := by
  refine ends_congr (fun src rest => ?_) fun src => fails_map
  simp only [gives_map_success]
  constructor
  · rintro ⟨v, w, hp, -⟩
    exact ⟨w, hp⟩
  · rintro ⟨w, hp⟩
    obtain ⟨v, hv⟩ := hf w
    exact ⟨v, w, hp, hv⟩

theorem ends_orElse : (orElse p q).ends = Outcomes.choice p.ends q.ends := by
  refine ends_congr (fun src rest => ?_) fun src => ?_
  · simp only [gives_orElse_success, Outcomes.choice, ends, Option.some.injEq]
    grind
  · simp only [fails_orElse, Outcomes.choice, ends, reduceCtorEq, and_false, exists_false, false_or]

/-- The second step may depend on the value of the first, as long as its outcomes do not. -/
theorem seq_le_ends_flatMap {next : Value → Except Fault Step}
    (h : ∀ v, ∃ k, next v = .ok k ∧ S ≤ k.ends) :
    Outcomes.seq p.ends S ≤ (flatMap p next).ends := by
  rintro src o (⟨mid, ⟨v, hp⟩, hS⟩ | ⟨hp, rfl⟩)
  · obtain ⟨k, hk, hle⟩ := h v
    have hends := hle mid o hS
    cases o with
    | none => exact fails_flatMap.2 (.inr ⟨v, mid, k, hp, hk, hends⟩)
    | some rest =>
      obtain ⟨w, hw⟩ := hends
      exact ⟨w, gives_flatMap_success.2 ⟨v, mid, k, hp, hk, hw⟩⟩
  · exact fails_flatMap.2 (.inl hp)

theorem ends_flatMap_le {next : Value → Except Fault Step}
    (h : ∀ v k, next v = .ok k → k.ends ≤ S) : (flatMap p next).ends ≤ Outcomes.seq p.ends S := by
  intro src o hends
  cases o with
  | none =>
    rcases fails_flatMap.1 hends with hp | ⟨v, mid, k, hp, hk, hfails⟩
    · exact .inr ⟨hp, rfl⟩
    · exact .inl ⟨mid, hp.ends, h v k hk mid none hfails⟩
  | some rest =>
    obtain ⟨w, hends⟩ := hends
    obtain ⟨v, mid, k, hp, hk, hgives⟩ := gives_flatMap_success.1 hends
    exact .inl ⟨mid, hp.ends, h v k hk mid (some rest) hgives.ends⟩

theorem ends_flatMap_const :
    (flatMap p fun _ => .ok q).ends = Outcomes.seq p.ends q.ends := by
  refine le_antisymm (ends_flatMap_le fun v k hk => ?_)
    (seq_le_ends_flatMap fun v => ⟨q, rfl, le_rfl⟩)
  cases hk
  exact le_rfl

theorem ends_optional : (optional p).ends = Outcomes.choice p.ends Outcomes.empty := by
  refine ends_congr (fun src rest => ?_) fun src => ?_
  · simp only [gives_optional_success, Outcomes.choice, Outcomes.empty, ends, Option.some.injEq]
    grind
  · simp [optional_never_fails, Outcomes.choice, Outcomes.empty]

theorem ends_lookahead : (lookahead p).ends = Outcomes.not (Outcomes.not p.ends) := by
  refine ends_congr (fun src rest => ?_) fun src => ?_
  · simp only [gives_lookahead_success, Outcomes.not, ends, Option.some.injEq]
    grind
  · simp [fails_lookahead, Outcomes.not, ends]

/-- Without a limit, every value can be written into the message. -/
theorem ends_inverted : (inverted none p).ends = Outcomes.not p.ends := by
  refine ends_congr (fun src rest => ?_) fun src => ?_
  · simp only [gives_inverted_success, Outcomes.not, ends, Option.some.injEq]
    grind
  · simp only [Fails, gives_inverted_failure, Value.written?, Outcomes.not, ends]
    grind

theorem ends_seq_cons :
    (seq (p :: ps)).ends = Outcomes.seq p.ends (seq ps).ends := by
  refine ends_congr (fun src rest => ?_) fun src => ?_
  · simp only [gives_seq_cons, Outcomes.seq, ends, reduceCtorEq, and_false, or_false]
    constructor
    · rintro ⟨v, w, mid, ws, hp, hps, rfl⟩
      exact ⟨mid, ⟨w, hp⟩, _, hps⟩
    · rintro ⟨mid, ⟨w, hp⟩, v, hps⟩
      obtain ⟨ws, rfl, -⟩ := gives_seq_success.1 hps
      exact ⟨_, w, mid, ws, hp, hps, rfl⟩
  · simp only [fails_seq_cons, Outcomes.seq, ends]
    grind

theorem ends_seq_singleton : (seq [p]).ends = p.ends := by
  have hnil : (seq []).ends = Outcomes.empty := by
    refine ends_congr (fun src rest => ?_) fun src => ?_
    · simp [Outcomes.empty]
    · simp [Outcomes.empty]
  rw [ends_seq_cons, hnil, Outcomes.seq_empty]

theorem ends_oneOf_cons :
    (oneOf (p :: ps)).ends = Outcomes.choice p.ends (oneOf ps).ends := by
  refine ends_congr (fun src rest => ?_) fun src => ?_
  · simp only [gives_oneOf_cons, Outcomes.choice, ends, Option.some.injEq]
    grind
  · simp only [fails_oneOf_cons, Outcomes.choice, ends, reduceCtorEq, and_false, exists_false,
      false_or]

theorem ends_oneOf_singleton : (oneOf [p]).ends = p.ends := by
  have hnil : (oneOf []).ends = fun _ o => o = none := by
    refine ends_congr (fun src rest => ?_) fun src => ?_
    · simp
    · simp
  rw [ends_oneOf_cons, hnil, Outcomes.choice_refuse]

theorem ends_string_cons {c : CodePoint} {t : Text} :
    (string (c :: t)).ends = Outcomes.seq (Outcomes.char (· = c)) (string t).ends := by
  refine ends_congr (fun src rest => ?_) fun src => ?_
  · simp only [gives_string_success, Outcomes.seq, ends, reduceCtorEq, and_false, or_false]
    cases src with
    | nil => simp [Outcomes.char]
    | cons d k =>
      by_cases hd : d = c
      · simp [Outcomes.char, hd, eq_comm (a := k)]
      · simp [Outcomes.char, hd]
  · simp only [fails_string, Outcomes.seq, ends, and_true]
    cases src with
    | nil => simp [Outcomes.char]
    | cons d k =>
      by_cases hd : d = c
      · simp [Outcomes.char, hd]
      · simp [Outcomes.char, hd, Ne.symm hd]

/-- A text is read as the sequence of its characters is. -/
theorem ends_string (call : Nat → Outcomes) (t : Text) :
    (string t).ends = (Peg.literal t).outcomes call := by
  have hnil : (string []).ends = Outcomes.empty := by
    refine ends_congr (fun src rest => ?_) fun src => ?_
    · simp [gives_string_success, Outcomes.empty, eq_comm]
    · simp [fails_string, Outcomes.empty]
  cases t with
  | nil => exact hnil
  | cons c t =>
    induction t generalizing c with
    | nil =>
      rw [ends_string_cons, hnil, Outcomes.seq_empty]
      rfl
    | cons d t ih =>
      rw [ends_string_cons, ih]
      rfl

/-! ## Loops -/

/-- What iterations do if a step does what `R` allows. Iterations that consume nothing add nothing
to a derivation, so they are left out. -/
theorem repeats_of_star (hR : R ≤ p.ends) (hshrink : R.Shrinks) (h : Outcomes.star R src o) :
    ∃ vs rest, o = some rest ∧ p.Repeats src vs rest ∧ (vs = [] → p.Fails src) := by
  induction h with
  | stop h => exact ⟨[], _, rfl, .fails (hR _ _ h), fun _ => hR _ _ h⟩
  | @next src mid rest h _ ih =>
    obtain ⟨v, hp⟩ := hR _ _ h
    by_cases hlt : mid.length < src.length
    · obtain ⟨vs, rest', ho, hrepeats, -⟩ := ih
      exact ⟨v :: vs, rest', ho, .next hp hlt hrepeats, fun hnil => by cases hnil⟩
    -- nothing is consumed, so the rest of the derivation is one of the same input
    · rw [hshrink.eq_of_length_le h (Nat.le_of_not_lt hlt)] at ih
      exact ih

/-- Iterations are derived where no step of them succeeds without consuming. -/
theorem star_of_repeats (hR : p.ends ≤ R) (hshrink : R.Shrinks) (hne : ∀ src, ¬ R src (some src))
    (h : p.Repeats src vs rest) :
    Outcomes.star R src (some rest) ∧ (vs = [] → R src none) ∧
      (vs ≠ [] → Outcomes.seq R (Outcomes.star R) src (some rest)) := by
  induction h with
  | fails h => exact ⟨.stop (hR _ _ h.ends), fun _ => hR _ _ h.ends, fun h => absurd rfl h⟩
  | stalls h hle =>
    -- the only way for a loop to stop where the expression goes on
    have hmatch := hR _ _ h.ends
    rw [hshrink.eq_of_length_le hmatch hle] at hmatch
    exact absurd hmatch (hne _)
  | next h _ _ ih =>
    have hmatch := hR _ _ h.ends
    exact ⟨.next hmatch ih.1, fun h => by (cases h), fun _ => .inl ⟨_, hmatch, ih.1⟩⟩

/-- The step always succeeds, with the lists and rests that `L` relates to the input. -/
structure Lists (p : Step) (L : Text → List Value → Text → Prop) : Prop where
  gives : ∀ {src rest : Text} {v : Value},
    p.Gives src (.success v rest) ↔ ∃ vs, v = .list vs ∧ L src vs rest
  never_fails : ∀ {src : Text}, ¬ p.Fails src

theorem lists_many : (many p).Lists p.Repeats := ⟨gives_many_success, many_never_fails⟩

/-- The contents of a separated list. -/
inductive Separates (content separator : Step) : Text → List Value → Text → Prop
  | none {src : Text} : content.Fails src → Separates content separator src [] src
  | some {src mid rest : Text} {v : Value} {vs : List Value} :
      content.Gives src (.success v mid) →
      (flatMap separator fun _ => .ok content).Repeats mid vs rest →
      Separates content separator src (v :: vs) rest

theorem lists_sepBy : (sepBy content separator).Lists (Separates content separator) := by
  refine ⟨gives_sepBy_success.trans ?_, sepBy_never_fails⟩
  constructor
  · rintro (⟨hfails, rfl, rfl⟩ | ⟨w, mid, vs, hgives, rfl, hvs⟩)
    · exact ⟨[], rfl, .none hfails⟩
    · exact ⟨w :: vs, rfl, .some hgives hvs⟩
  · rintro ⟨vs, rfl, h⟩
    cases h with
    | none hfails => exact .inl ⟨hfails, rfl, rfl⟩
    | some hgives hvs => exact .inr ⟨_, _, _, hgives, rfl, hvs⟩

variable {L : Text → List Value → Text → Prop}

theorem Lists.ends_iff (h : p.Lists L) :
    p.ends src o ↔ ∃ vs rest, o = some rest ∧ L src vs rest := by
  cases o with
  | none => simp [ends, h.never_fails]
  | some rest =>
    simp only [ends, h.gives, Option.some.injEq]
    grind

theorem Lists.nonempty_ends_iff (h : p.Lists L) :
    (nonempty p).ends src o ↔
      (∃ vs rest, o = some rest ∧ L src vs rest ∧ vs ≠ []) ∨
        (o = none ∧ ∃ rest, L src [] rest) := by
  cases o with
  | none => simp [ends, fails_nonempty, h.never_fails, h.gives]
  | some rest =>
    simp only [ends, gives_nonempty_success, h.gives, Option.some.injEq]
    grind

/-! What is derived, a loop does. -/

theorem star_le_ends (hq : q.Lists p.Repeats) (hR : R ≤ p.ends) (hshrink : R.Shrinks) :
    Outcomes.star R ≤ q.ends := by
  intro src o h
  obtain ⟨vs, rest, ho, hvs, -⟩ := repeats_of_star hR hshrink h
  exact hq.ends_iff.2 ⟨vs, rest, ho, hvs⟩

theorem plus_le_ends (hq : q.Lists p.Repeats) (hR : R ≤ p.ends) (hshrink : R.Shrinks) :
    Outcomes.seq R (Outcomes.star R) ≤ (nonempty q).ends := by
  rintro src o (⟨mid, hfirst, hothers⟩ | ⟨hfails, rfl⟩)
  · obtain ⟨rest, rfl⟩ := Outcomes.exists_of_star hothers
    obtain ⟨vs, rest', ho, hvs, hnil⟩ := repeats_of_star hR hshrink (.next hfirst hothers)
    obtain ⟨v, hp⟩ := hR _ _ hfirst
    -- the list has the first value in it, as the step did not fail
    exact hq.nonempty_ends_iff.2 (.inl ⟨vs, rest', ho, hvs, fun h => (hnil h).not_success hp⟩)
  · exact hq.nonempty_ends_iff.2 (.inr ⟨rfl, src, .fails (hR _ _ hfails)⟩)

/-- The contents of a separated list that is derived. -/
theorem separates_of_derived (hR : R ≤ content.ends) (hS : S ≤ separator.ends)
    (hRs : R.Shrinks) (hSs : S.Shrinks) {mid : Text} (hfirst : R src (some mid))
    (h : Outcomes.star (Outcomes.seq S R) mid o) :
    ∃ vs rest, o = some rest ∧ Separates content separator src vs rest ∧ vs ≠ [] := by
  have htail : Outcomes.seq S R ≤ (flatMap separator fun _ => .ok content).ends := by
    rw [ends_flatMap_const]
    exact Outcomes.seq_mono hS hR
  obtain ⟨vs, rest, ho, hvs, -⟩ := repeats_of_star htail (hSs.seq hRs) h
  obtain ⟨v, hv⟩ := hR _ _ hfirst
  exact ⟨v :: vs, rest, ho, .some hv hvs, List.cons_ne_nil v vs⟩

theorem separated_le_ends (hq : q.Lists (Separates content separator)) (hR : R ≤ content.ends)
    (hS : S ≤ separator.ends) (hRs : R.Shrinks) (hSs : S.Shrinks) :
    Outcomes.choice (Outcomes.seq R (Outcomes.star (Outcomes.seq S R))) Outcomes.empty ≤
      q.ends := by
  -- a list with contents, or the empty list where the first content fails
  rintro src o (⟨rest, ⟨mid, hfirst, hothers⟩ | ⟨-, hnone⟩, rfl⟩ | ⟨hseq, rfl⟩)
  · obtain ⟨vs, rest', ho, hvs, -⟩ := separates_of_derived hR hS hRs hSs hfirst hothers
    exact hq.ends_iff.2 ⟨vs, rest', ho, hvs⟩
  · cases hnone
  · rcases hseq with ⟨mid, -, hstar⟩ | ⟨hfails, -⟩
    · obtain ⟨rest, hrest⟩ := Outcomes.exists_of_star hstar
      cases hrest
    · exact hq.ends_iff.2 ⟨[], src, rfl, .none (hR _ _ hfails)⟩

theorem separated1_le_ends (hq : q.Lists (Separates content separator)) (hR : R ≤ content.ends)
    (hS : S ≤ separator.ends) (hRs : R.Shrinks) (hSs : S.Shrinks) :
    Outcomes.seq R (Outcomes.star (Outcomes.seq S R)) ≤ (nonempty q).ends := by
  rintro src o (⟨mid, hfirst, hothers⟩ | ⟨hfails, rfl⟩)
  · obtain ⟨vs, rest, ho, hvs, hne⟩ := separates_of_derived hR hS hRs hSs hfirst hothers
    exact hq.nonempty_ends_iff.2 (.inl ⟨vs, rest, ho, hvs, hne⟩)
  · exact hq.nonempty_ends_iff.2 (.inr ⟨rfl, src, .none (hR _ _ hfails)⟩)

/-! What a loop does is derived, if no repeated step succeeds without consuming. -/

theorem ends_le_star (hq : q.Lists p.Repeats) (hR : p.ends ≤ R) (hshrink : R.Shrinks)
    (hne : ∀ src, ¬ R src (some src)) : q.ends ≤ Outcomes.star R := by
  intro src o h
  obtain ⟨vs, rest, rfl, hvs⟩ := hq.ends_iff.1 h
  exact (star_of_repeats hR hshrink hne hvs).1

theorem ends_le_plus (hq : q.Lists p.Repeats) (hR : p.ends ≤ R) (hshrink : R.Shrinks)
    (hne : ∀ src, ¬ R src (some src)) :
    (nonempty q).ends ≤ Outcomes.seq R (Outcomes.star R) := by
  intro src o h
  rcases hq.nonempty_ends_iff.1 h with ⟨vs, rest, rfl, hvs, hnil⟩ | ⟨rfl, rest, hvs⟩
  · exact (star_of_repeats hR hshrink hne hvs).2.2 hnil
  · exact .inr ⟨(star_of_repeats hR hshrink hne hvs).2.1 rfl, rfl⟩

theorem derived_of_separates (hR : content.ends ≤ R) (hS : separator.ends ≤ S) (hRs : R.Shrinks)
    (hSs : S.Shrinks) (hne : ∀ src, ¬ Outcomes.seq S R src (some src))
    (h : Separates content separator src vs rest) :
    (vs = [] → R src none ∧ rest = src) ∧
      (vs ≠ [] → Outcomes.seq R (Outcomes.star (Outcomes.seq S R)) src (some rest)) := by
  cases h with
  | none hfails => exact ⟨fun _ => ⟨hR _ _ hfails.ends, rfl⟩, fun h => absurd rfl h⟩
  | some hgives hvs =>
    have htail : (flatMap separator fun _ => .ok content).ends ≤ Outcomes.seq S R := by
      rw [ends_flatMap_const]
      exact Outcomes.seq_mono hS hR
    have hstar := (star_of_repeats htail (hSs.seq hRs) hne hvs).1
    exact ⟨fun h => by (cases h), fun _ => .inl ⟨_, hR _ _ hgives.ends, hstar⟩⟩

theorem ends_le_separated (hq : q.Lists (Separates content separator)) (hR : content.ends ≤ R)
    (hS : separator.ends ≤ S) (hRs : R.Shrinks) (hSs : S.Shrinks)
    (hne : ∀ src, ¬ Outcomes.seq S R src (some src)) :
    q.ends ≤
      Outcomes.choice (Outcomes.seq R (Outcomes.star (Outcomes.seq S R))) Outcomes.empty := by
  intro src o h
  obtain ⟨vs, rest, rfl, hvs⟩ := hq.ends_iff.1 h
  obtain ⟨hnil, hcons⟩ := derived_of_separates hR hS hRs hSs hne hvs
  by_cases hvs : vs = []
  · obtain ⟨hfails, rfl⟩ := hnil hvs
    exact .inr ⟨.inr ⟨hfails, rfl⟩, rfl⟩
  · exact .inl ⟨rest, hcons hvs, rfl⟩

theorem ends_le_separated1 (hq : q.Lists (Separates content separator)) (hR : content.ends ≤ R)
    (hS : separator.ends ≤ S) (hRs : R.Shrinks) (hSs : S.Shrinks)
    (hne : ∀ src, ¬ Outcomes.seq S R src (some src)) :
    (nonempty q).ends ≤ Outcomes.seq R (Outcomes.star (Outcomes.seq S R)) := by
  intro src o h
  rcases hq.nonempty_ends_iff.1 h with ⟨vs, rest, rfl, hvs, hnil⟩ | ⟨rfl, rest, hvs⟩
  · exact (derived_of_separates hR hS hRs hSs hne hvs).2 hnil
  · exact .inr ⟨((derived_of_separates hR hS hRs hSs hne hvs).1 rfl).1, rfl⟩

theorem not_ends_nonempty (h : ∀ o, ¬ p.ends src o) : ¬ (nonempty p).ends src o := by
  cases o with
  | none =>
    intro hends
    rcases fails_nonempty.1 hends with hfails | ⟨rest, hgives⟩
    · exact h none hfails
    · exact h (some rest) hgives.ends
  | some rest =>
    rintro ⟨v, hends⟩
    exact h (some rest) (gives_nonempty_success.1 hends).1.ends

end Parselet.Step
