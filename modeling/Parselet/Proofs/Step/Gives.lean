import Mathlib.Data.List.Basic
import Parselet.Parser.Step

/-!
The results that steps end with. Each combinator is described by the results of the steps in it,
whatever these steps are; a run that is given up or cut off has no result.
-/

namespace Parselet

theorem except_bind_eq_ok_iff {ε α β : Type} {e : Except ε α} {f : α → Except ε β} {b : β} :
    (e >>= f) = .ok b ↔ ∃ a, e = .ok a ∧ f a = .ok b := by
  cases e <;> simp [bind, Except.bind]

theorem except_map_eq_ok_iff {ε α β : Type} {e : Except ε α} {f : α → β} {b : β} :
    e.map f = .ok b ↔ ∃ a, e = .ok a ∧ f a = b := by
  cases e <;> simp [Except.map]

namespace Run

variable {α β : Type}

instance : LawfulMonad Run :=
  LawfulMonad.mk' Run
    (fun r => by
      rcases r with ⟨e, log⟩
      cases e <;> simp [Functor.map, bind])
    (fun a next => by simp [Bind.bind, Pure.pure, bind])
    (fun r f g => by
      rcases r with ⟨e, log⟩
      cases e with
      | value a => cases h : (f a).ending <;> simp [Bind.bind, bind, h, List.append_assoc]
      | raised fault => rfl
      | unfinished => rfl)

@[simp] theorem ending_pure (a : α) : (pure a : Run α).ending = .value a := rfl

theorem ending_bind_of_value {r : Run α} {next : α → Run β} {a : α} (h : r.ending = .value a) :
    (r >>= next).ending = (next a).ending := by
  simp only [Bind.bind, bind, h]

theorem ending_bind_of_raised {r : Run α} {next : α → Run β} {fault : Fault}
    (h : r.ending = .raised fault) : (r >>= next).ending = .raised fault := by
  simp only [Bind.bind, bind, h]

theorem ending_bind_of_unfinished {r : Run α} {next : α → Run β} (h : r.ending = .unfinished) :
    (r >>= next).ending = .unfinished := by
  simp only [Bind.bind, bind, h]

@[simp] theorem ending_bind_eq_value {r : Run α} {next : α → Run β} {b : β} :
    (r >>= next).ending = .value b ↔ ∃ a, r.ending = .value a ∧ (next a).ending = .value b := by
  rcases r with ⟨e, log⟩
  cases e <;> simp [Bind.bind, bind]

@[simp] theorem ending_ofExcept_eq_value {e : Except Fault α} {a : α} :
    (ofExcept e).ending = .value a ↔ e = .ok a := by
  cases e <;> simp [ofExcept]

end Run

namespace Result

variable {r : Result} {f : Value → Except Fault Value} {v : Value} {rest m : Text}
  {s : Option Text}

theorem map_eq_success_iff :
    r.map f = .ok (.success v rest) ↔ ∃ w, r = .success w rest ∧ f w = .ok v := by
  cases r with
  | success w t =>
    simp only [map, except_bind_eq_ok_iff, Pure.pure, Except.pure, Except.ok.injEq, success.injEq]
    grind
  | failure m' s' => simp [map]

theorem map_eq_failure_iff : r.map f = .ok (.failure m s) ↔ r = .failure m s := by
  cases r with
  | success w t => simp [map, except_bind_eq_ok_iff, Pure.pure, Except.pure]
  | failure m' s' => simp [map]

end Result

namespace Step

variable {p q content separator : Step} {ps : List Step} {src rest m : Text} {v : Value}
  {s : Option Text} {accepts : CodePoint → Bool}

/-- The step ends on `src` with the result `r`. -/
def Gives (p : Step) (src : Text) (r : Result) : Prop := (p src).ending = .value r

/-- The step ends on `src` with some failure. -/
def Fails (p : Step) (src : Text) : Prop := ∃ m s, p.Gives src (.failure m s)

theorem Gives.unique {r r' : Result} (h : p.Gives src r) (h' : p.Gives src r') : r = r' :=
  Ending.value.inj (h.symm.trans h')

theorem Fails.not_success (h : p.Fails src) : ¬ p.Gives src (.success v rest) := by
  obtain ⟨m, s, h⟩ := h
  intro h'
  cases h.unique h'

/-- What a sequence of runs does after a step, by what the step answers. -/
theorem bind_gives_iff {α : Type} {next : Result → Run α} {a : α} :
    (p src >>= next).ending = .value a ↔
      (∃ v rest, p.Gives src (.success v rest) ∧ (next (.success v rest)).ending = .value a) ∨
        ∃ m s, p.Gives src (.failure m s) ∧ (next (.failure m s)).ending = .value a := by
  rw [Run.ending_bind_eq_value]
  constructor
  · rintro ⟨v | _, hr, h⟩
    · exact .inl ⟨_, _, hr, h⟩
    · exact .inr ⟨_, _, hr, h⟩
  · rintro (⟨v, rest, hr, h⟩ | ⟨m, s, hr, h⟩)
    · exact ⟨_, hr, h⟩
    · exact ⟨_, hr, h⟩

/-! ## Steps that look at the input themselves -/

@[simp] theorem gives_pure {r : Result} : (Step.pure v).Gives src r ↔ r = .success v src := by
  simp [Gives, Step.pure, eq_comm]

@[simp] theorem gives_fail {r : Result} : (fail m).Gives src r ↔ r = .failure m (some src) := by
  simp [Gives, fail, eq_comm]

@[simp] theorem not_gives_raise {fault : Fault} {r : Result} : ¬ (raise fault).Gives src r := by
  simp [Gives, raise, Run.raise]

theorem gives_eof_success :
    eof.Gives src (.success v rest) ↔ src = [] ∧ v = .nothing ∧ rest = [] := by
  cases src <;> simp [Gives, eof, fail, eq_comm]

theorem fails_eof : eof.Fails src ↔ src ≠ [] := by
  cases src <;> simp [Fails, Gives, eof, fail]

theorem gives_satisfy_success :
    (satisfy accepts m).Gives src (.success v rest) ↔
      ∃ c, src = c :: rest ∧ accepts c = true ∧ v = .text [c] := by
  cases src with
  | nil => simp [Gives, satisfy, fail]
  | cons c t =>
    by_cases h : accepts c = true
    · simp only [Gives, satisfy, if_pos h, Run.ending_pure, Ending.value.injEq]
      grind
    · simp [Gives, satisfy, h, fail]

theorem fails_satisfy :
    (satisfy accepts m).Fails src ↔ ∀ c t, src = c :: t → accepts c = false := by
  cases src with
  | nil => simp [Fails, Gives, satisfy, fail]
  | cons c t =>
    by_cases h : accepts c = true
    · simp [Fails, Gives, satisfy, h]
    · simp [Fails, Gives, satisfy, h, fail]

theorem gives_character_success {c : CodePoint} :
    (character c).Gives src (.success v rest) ↔ src = c :: rest ∧ v = .text [c] := by
  simp only [character, gives_satisfy_success, decide_eq_true_eq]
  constructor
  · rintro ⟨d, hsrc, rfl, hv⟩
    exact ⟨hsrc, hv⟩
  · rintro ⟨hsrc, hv⟩
    exact ⟨c, hsrc, rfl, hv⟩

theorem fails_character {c : CodePoint} : (character c).Fails src ↔ ∀ t, src ≠ c :: t := by
  simp only [character, fails_satisfy, decide_eq_false_iff_not]
  constructor
  · intro h t hsrc
    exact h c t hsrc rfl
  · rintro h d t hsrc rfl
    exact h t hsrc

theorem literalFailure_fails (t expected src : Text) : (literalFailure t expected).Fails src := by
  by_cases h : src.length < t.length
  · simp [Fails, Gives, literalFailure, h, fail]
  · simp [Fails, Gives, literalFailure, h, fail]

theorem gives_string_success {t : Text} :
    (string t).Gives src (.success v rest) ↔ src = t ++ rest ∧ v = .text t := by
  by_cases h : t <+: src
  · obtain ⟨k, rfl⟩ := h
    simp only [Gives, string, List.isPrefixOf_iff_prefix, List.prefix_append, if_true,
      List.drop_left, Run.ending_pure, Ending.value.injEq, List.append_cancel_left_eq]
    grind
  · have hfails := literalFailure_fails t (inDoubleQuotes t) src
    constructor
    · intro hg
      simp only [Gives, string, List.isPrefixOf_iff_prefix, h, if_false] at hg
      exact absurd hg hfails.not_success
    · rintro ⟨rfl, -⟩
      exact absurd (List.prefix_append t rest) h

theorem fails_string {t : Text} : (string t).Fails src ↔ ¬ t <+: src := by
  constructor
  · rintro h ⟨k, rfl⟩
    exact h.not_success (gives_string_success.2 ⟨rfl, rfl⟩)
  · intro h
    simpa only [Fails, Gives, string, List.isPrefixOf_iff_prefix, h, if_false] using
      literalFailure_fails t (inDoubleQuotes t) src

theorem gives_anycase_success {t : Text} :
    (anycase t).Gives src (.success v rest) ↔
      beginsLike t src = true ∧ v = .text (src.take t.length) ∧ rest = src.drop t.length := by
  by_cases h : beginsLike t src = true
  · simp [Gives, anycase, h, eq_comm]
  · have hfails := literalFailure_fails t (inDoubleQuotes t ++ " (any case)") src
    simp only [Gives, anycase, if_neg h]
    exact iff_of_false hfails.not_success fun hsuccess => h hsuccess.1

theorem fails_anycase {t : Text} : (anycase t).Fails src ↔ beginsLike t src = false := by
  constructor
  · intro h
    exact Bool.eq_false_iff.2 fun hlike =>
      h.not_success (gives_anycase_success.2 ⟨hlike, rfl, rfl⟩)
  · intro h
    simpa only [Fails, Gives, anycase, if_neg (Bool.eq_false_iff.1 h)] using
      literalFailure_fails t (inDoubleQuotes t ++ " (any case)") src

/-! ## Steps made from others -/

theorem gives_map_success {f : Value → Except Fault Value} :
    (map p f).Gives src (.success v rest) ↔ ∃ w, p.Gives src (.success w rest) ∧ f w = .ok v := by
  simp only [Gives, map, Run.ending_bind_eq_value, Run.ending_ofExcept_eq_value,
    Result.map_eq_success_iff]
  grind

theorem gives_map_failure {f : Value → Except Fault Value} :
    (map p f).Gives src (.failure m s) ↔ p.Gives src (.failure m s) := by
  simp only [Gives, map, Run.ending_bind_eq_value, Run.ending_ofExcept_eq_value,
    Result.map_eq_failure_iff]
  grind

theorem fails_map {f : Value → Except Fault Value} : (map p f).Fails src ↔ p.Fails src := by
  simp only [Fails, gives_map_failure]

theorem gives_flatMap_success {next : Value → Except Fault Step} :
    (flatMap p next).Gives src (.success v rest) ↔
      ∃ w mid q, p.Gives src (.success w mid) ∧ next w = .ok q ∧ q.Gives mid (.success v rest) := by
  rw [Gives, flatMap, bind_gives_iff]
  simp [Gives]

theorem gives_flatMap_failure {next : Value → Except Fault Step} :
    (flatMap p next).Gives src (.failure m s) ↔
      p.Gives src (.failure m s) ∨
        ∃ w mid q, p.Gives src (.success w mid) ∧ next w = .ok q ∧ q.Gives mid (.failure m s) := by
  rw [Gives, flatMap, bind_gives_iff]
  simp [Gives, or_comm]

theorem fails_flatMap {next : Value → Except Fault Step} :
    (flatMap p next).Fails src ↔
      p.Fails src ∨ ∃ w mid q, p.Gives src (.success w mid) ∧ next w = .ok q ∧ q.Fails mid := by
  simp only [Fails, gives_flatMap_failure]
  grind

theorem gives_orElse_success :
    (orElse p q).Gives src (.success v rest) ↔
      p.Gives src (.success v rest) ∨ p.Fails src ∧ q.Gives src (.success v rest) := by
  rw [Gives, orElse, bind_gives_iff]
  simp [Gives, Fails]

theorem gives_orElse_failure :
    (orElse p q).Gives src (.failure m s) ↔ p.Fails src ∧ q.Gives src (.failure m s) := by
  rw [Gives, orElse, bind_gives_iff]
  simp [Gives, Fails]

theorem fails_orElse : (orElse p q).Fails src ↔ p.Fails src ∧ q.Fails src := by
  simp only [Fails, gives_orElse_failure, exists_and_left]

/-- The values of the iterations of `p` from `src` on, and what they leave. -/
inductive Repeats (p : Step) : Text → List Value → Text → Prop
  | fails {src : Text} : p.Fails src → Repeats p src [] src
  | stalls {src rest : Text} {v : Value} :
      p.Gives src (.success v rest) → src.length ≤ rest.length → Repeats p src [] src
  | next {src rest left : Text} {v : Value} {vs : List Value} :
      p.Gives src (.success v rest) → rest.length < src.length → Repeats p rest vs left →
      Repeats p src (v :: vs) left

theorem iterate_ending_iff (src : Text) {vs : List Value} {left : Text} :
    (iterate p src).ending = .value (vs, left) ↔ Repeats p src vs left := by
  constructor
  · intro h
    -- the loop recurses on what an iteration leaves, so the induction is on the input
    fun_induction iterate p src generalizing vs left with
    | case1 src ih =>
      rcases bind_gives_iff.1 h with ⟨v, rest, hp, h⟩ | ⟨m, s, hp, h⟩
      · by_cases hlt : rest.length < src.length
        · simp only [hlt, if_true, Run.ending_bind_eq_value, Run.ending_pure, Ending.value.injEq,
            Prod.mk.injEq] at h
          obtain ⟨⟨ws, left'⟩, hrest, rfl, rfl⟩ := h
          exact .next hp hlt (ih rest hlt hrest)
        · simp only [hlt, if_false, Run.ending_pure, Ending.value.injEq, Prod.mk.injEq] at h
          obtain ⟨rfl, rfl⟩ := h
          exact .stalls hp (Nat.le_of_not_lt hlt)
      · simp only [Run.ending_pure, Ending.value.injEq, Prod.mk.injEq] at h
        obtain ⟨rfl, rfl⟩ := h
        exact .fails ⟨m, s, hp⟩
  · intro h
    -- one unfolding of the loop per iteration
    induction h with
    | fails h =>
      obtain ⟨m, s, hp⟩ := h
      rw [iterate, bind_gives_iff]
      exact .inr ⟨m, s, hp, rfl⟩
    | @stalls src rest v hp hle =>
      rw [iterate, bind_gives_iff]
      exact .inl ⟨v, rest, hp, by simp [Nat.not_lt_of_le hle]⟩
    | @next src rest left v vs hp hlt _ ih =>
      rw [iterate, bind_gives_iff]
      refine .inl ⟨v, rest, hp, ?_⟩
      simp only [hlt, if_true, Run.ending_bind_eq_value]
      exact ⟨_, ih, rfl⟩

theorem Repeats.unique {vs vs' : List Value} {left left' : Text} (h : p.Repeats src vs left)
    (h' : p.Repeats src vs' left') : vs = vs' ∧ left = left' := by
  have heq := ((iterate_ending_iff src).2 h).symm.trans ((iterate_ending_iff src).2 h')
  exact Prod.mk.inj (Ending.value.inj heq)

theorem gives_many_success :
    (many p).Gives src (.success v rest) ↔ ∃ vs, v = .list vs ∧ p.Repeats src vs rest := by
  simp only [Gives, many, Run.ending_bind_eq_value, Run.ending_pure, Ending.value.injEq,
    Result.success.injEq, Prod.exists, ← iterate_ending_iff]
  grind

theorem many_never_fails : ¬ (many p).Fails src := by
  rintro ⟨m, s, h⟩
  rw [Gives, many, Run.ending_bind_eq_value] at h
  simp at h

theorem gives_nonempty_success :
    (nonempty p).Gives src (.success v rest) ↔ p.Gives src (.success v rest) ∧ v ≠ .list [] := by
  rw [Gives, nonempty, bind_gives_iff]
  constructor
  · rintro (⟨w, t, hp, h⟩ | ⟨m, s, hp, h⟩)
    -- the match tells the empty list from all other values
    · split at h
      · cases h
      · next hne =>
        cases h
        exact ⟨hp, fun hv => hne rest (by rw [hv])⟩
    · cases h
  · rintro ⟨hp, hne⟩
    refine .inl ⟨v, rest, hp, ?_⟩
    split
    · next t heq =>
      cases heq
      exact absurd rfl hne
    · rfl

theorem gives_nonempty_failure :
    (nonempty p).Gives src (.failure m s) ↔
      p.Gives src (.failure m s) ∨
        (∃ rest, p.Gives src (.success (.list []) rest)) ∧
          m = "Expected at least one match" ∧ s = some src := by
  rw [Gives, nonempty, bind_gives_iff]
  constructor
  · rintro (⟨w, t, hp, h⟩ | ⟨m', s', hp, h⟩)
    · split at h
      · next t' heq =>
        cases heq
        cases h
        exact .inr ⟨⟨_, hp⟩, rfl, rfl⟩
      · cases h
    · cases h
      exact .inl hp
  · rintro (hp | ⟨⟨t, hp⟩, rfl, rfl⟩)
    · exact .inr ⟨m, s, hp, rfl⟩
    · exact .inl ⟨_, _, hp, rfl⟩

theorem fails_nonempty :
    (nonempty p).Fails src ↔ p.Fails src ∨ ∃ rest, p.Gives src (.success (.list []) rest) := by
  simp only [Fails, gives_nonempty_failure]
  grind

theorem gives_optional_success :
    (optional p).Gives src (.success v rest) ↔
      p.Gives src (.success v rest) ∨ p.Fails src ∧ v = .absent ∧ rest = src := by
  rw [Gives, optional, bind_gives_iff]
  simp only [Run.ending_pure, Ending.value.injEq, Result.success.injEq, Fails]
  grind

theorem optional_never_fails : ¬ (optional p).Fails src := by
  rintro ⟨m, s, h⟩
  rw [Gives, optional, bind_gives_iff] at h
  simp at h

/-- What follows the first content is a repetition of a separator and a content. -/
theorem separated_eq_iterate (content separator : Step) (src : Text) :
    separated content separator src = iterate (flatMap separator fun _ => .ok content) src := by
  fun_induction separated content separator src with
  | case1 src ih =>
    -- the two loops run the same steps; only the brackets around them differ
    rw [iterate, flatMap, bind_assoc]
    refine bind_congr fun r => ?_
    cases r with
    | failure m s => rfl
    | success w middle =>
      show (content middle >>= _) = (content middle >>= _)
      refine bind_congr fun r => ?_
      cases r with
      | failure m s => rfl
      | success v rest =>
        by_cases hlt : rest.length < src.length
        · simp only [hlt, if_true]
          rw [ih rest hlt]
        · simp only [hlt, if_false]

theorem gives_sepBy_success :
    (sepBy content separator).Gives src (.success v rest) ↔
      (content.Fails src ∧ v = .list [] ∧ rest = src) ∨
        ∃ w mid vs, content.Gives src (.success w mid) ∧ v = .list (w :: vs) ∧
          (flatMap separator fun _ => .ok content).Repeats mid vs rest := by
  rw [Gives, sepBy, bind_gives_iff]
  simp only [separated_eq_iterate, Run.ending_bind_eq_value, iterate_ending_iff, Run.ending_pure,
    Ending.value.injEq, Result.success.injEq, Prod.exists, Fails]
  grind

theorem sepBy_never_fails : ¬ (sepBy content separator).Fails src := by
  rintro ⟨m, s, h⟩
  rw [Gives, sepBy, bind_gives_iff] at h
  simp only [Run.ending_bind_eq_value] at h
  simp at h

/-! The parts of a sequence, one after another. -/

theorem collect_nil_iff {a : Except (Text × Option Text) (List Value × Text)} :
    (collect [] src).ending = .value a ↔ a = .ok ([], src) := by
  simp [collect, eq_comm]

theorem collect_cons_ok_iff {vs : List Value} {left : Text} :
    (collect (p :: ps) src).ending = .value (.ok (vs, left)) ↔
      ∃ w mid ws, p.Gives src (.success w mid) ∧ (collect ps mid).ending = .value (.ok (ws, left)) ∧
        vs = w :: ws := by
  rw [collect, bind_gives_iff]
  simp only [Run.ending_bind_eq_value]
  constructor
  · rintro (⟨w, mid, hp, ⟨e | ⟨ws, left'⟩, hps, h⟩⟩ | ⟨m, s, hp, h⟩)
    · cases h
    · cases h
      exact ⟨w, mid, ws, hp, hps, rfl⟩
    · cases h
  · rintro ⟨w, mid, ws, hp, hps, rfl⟩
    exact .inl ⟨w, mid, hp, _, hps, rfl⟩

theorem collect_cons_error_iff {e : Text × Option Text} :
    (collect (p :: ps) src).ending = .value (.error e) ↔
      p.Gives src (.failure e.1 e.2) ∨
        ∃ w mid, p.Gives src (.success w mid) ∧ (collect ps mid).ending = .value (.error e) := by
  rw [collect, bind_gives_iff]
  simp only [Run.ending_bind_eq_value]
  constructor
  · rintro (⟨w, mid, hp, ⟨e' | ⟨ws, left⟩, hps, h⟩⟩ | ⟨m, s, hp, h⟩)
    · cases h
      exact .inr ⟨w, mid, hp, hps⟩
    · cases h
    · cases h
      exact .inl hp
  · rintro (hp | ⟨w, mid, hp, hps⟩)
    · exact .inr ⟨_, _, hp, rfl⟩
    · exact .inl ⟨w, mid, hp, _, hps, rfl⟩

theorem gives_seq_success :
    (seq ps).Gives src (.success v rest) ↔
      ∃ vs, v = .tuple vs ∧ (collect ps src).ending = .value (.ok (vs, rest)) := by
  rw [Gives, seq, Run.ending_bind_eq_value]
  constructor
  · rintro ⟨e | ⟨vs, left⟩, hps, h⟩
    · cases h
    · cases h
      exact ⟨vs, rfl, hps⟩
  · rintro ⟨vs, rfl, hps⟩
    exact ⟨_, hps, rfl⟩

theorem gives_seq_failure :
    (seq ps).Gives src (.failure m s) ↔ (collect ps src).ending = .value (.error (m, s)) := by
  rw [Gives, seq, Run.ending_bind_eq_value]
  constructor
  · rintro ⟨e | ⟨vs, left⟩, hps, h⟩
    · cases h
      exact hps
    · cases h
  · intro hps
    exact ⟨_, hps, rfl⟩

@[simp] theorem gives_seq_nil :
    (seq []).Gives src (.success v rest) ↔ v = .tuple [] ∧ rest = src := by
  simp only [gives_seq_success, collect_nil_iff]
  grind

@[simp] theorem not_fails_seq_nil : ¬ (seq []).Fails src := by
  simp [Fails, gives_seq_failure, collect_nil_iff]

theorem gives_seq_cons :
    (seq (p :: ps)).Gives src (.success v rest) ↔
      ∃ w mid ws, p.Gives src (.success w mid) ∧ (seq ps).Gives mid (.success (.tuple ws) rest) ∧
        v = .tuple (w :: ws) := by
  simp only [gives_seq_success, collect_cons_ok_iff]
  grind

theorem gives_seq_cons_failure :
    (seq (p :: ps)).Gives src (.failure m s) ↔
      p.Gives src (.failure m s) ∨
        ∃ w mid, p.Gives src (.success w mid) ∧ (seq ps).Gives mid (.failure m s) := by
  simp only [gives_seq_failure, collect_cons_error_iff]

theorem fails_seq_cons :
    (seq (p :: ps)).Fails src ↔
      p.Fails src ∨ ∃ w mid, p.Gives src (.success w mid) ∧ (seq ps).Fails mid := by
  simp only [Fails, gives_seq_failure, collect_cons_error_iff]
  grind

/-! Choices and conditions. -/

theorem gives_firstOf_success :
    (firstOf (.failure m s) ps).Gives src (.success v rest) ↔
      (oneOf ps).Gives src (.success v rest) := by
  -- the answer of an empty choice is the only thing that differs
  cases ps with
  | nil => simp [Gives, oneOf, firstOf]
  | cons p ps => rfl

theorem fails_firstOf : (firstOf (.failure m s) ps).Fails src ↔ (oneOf ps).Fails src := by
  cases ps with
  | nil => simp [Fails, Gives, oneOf, firstOf]
  | cons p ps => rfl

@[simp] theorem not_gives_oneOf_nil : ¬ (oneOf []).Gives src (.success v rest) := by
  simp [Gives, oneOf, firstOf]

@[simp] theorem fails_oneOf_nil : (oneOf []).Fails src := by
  simp [Fails, Gives, oneOf, firstOf]

theorem gives_oneOf_cons :
    (oneOf (p :: ps)).Gives src (.success v rest) ↔
      p.Gives src (.success v rest) ∨ p.Fails src ∧ (oneOf ps).Gives src (.success v rest) := by
  rw [Gives, oneOf, firstOf, bind_gives_iff]
  constructor
  · rintro (⟨w, mid, hp, h⟩ | ⟨m, s, hp, h⟩)
    · cases h
      exact .inl hp
    · exact .inr ⟨⟨m, s, hp⟩, gives_firstOf_success.1 h⟩
  · rintro (hp | ⟨⟨m, s, hp⟩, h⟩)
    · exact .inl ⟨v, rest, hp, rfl⟩
    · exact .inr ⟨m, s, hp, gives_firstOf_success.2 h⟩

theorem fails_oneOf_cons : (oneOf (p :: ps)).Fails src ↔ p.Fails src ∧ (oneOf ps).Fails src := by
  constructor
  · rintro ⟨m, s, h⟩
    rw [Gives, oneOf, firstOf, bind_gives_iff] at h
    rcases h with ⟨w, mid, hp, h⟩ | ⟨m', s', hp, h⟩
    · cases h
    · exact ⟨⟨m', s', hp⟩, fails_firstOf.1 ⟨m, s, h⟩⟩
  · rintro ⟨⟨m', s', hp⟩, h⟩
    obtain ⟨m, s, h⟩ := fails_firstOf.2 h
    refine ⟨m, s, ?_⟩
    rw [Gives, oneOf, firstOf, bind_gives_iff]
    exact .inr ⟨m', s', hp, h⟩

theorem gives_lookahead_success :
    (lookahead p).Gives src (.success v rest) ↔
      rest = src ∧ ∃ mid, p.Gives src (.success v mid) := by
  rw [Gives, lookahead, bind_gives_iff]
  simp only [Run.ending_pure, Ending.value.injEq, Result.success.injEq]
  grind

theorem gives_lookahead_failure :
    (lookahead p).Gives src (.failure m s) ↔ p.Gives src (.failure m s) := by
  rw [Gives, lookahead, bind_gives_iff]
  simp only [Run.ending_pure, Ending.value.injEq, Result.failure.injEq]
  grind

theorem fails_lookahead : (lookahead p).Fails src ↔ p.Fails src := by
  simp only [Fails, gives_lookahead_failure]

theorem gives_inverted_success {limit : Limit} :
    (inverted limit p).Gives src (.success v rest) ↔ p.Fails src ∧ v = .nothing ∧ rest = src := by
  rw [Gives, inverted, bind_gives_iff]
  simp only [Run.ending_bind_eq_value, fail, Run.ending_pure, Ending.value.injEq,
    Result.success.injEq, Fails]
  grind

theorem gives_inverted_failure {limit : Limit} :
    (inverted limit p).Gives src (.failure m s) ↔
      ∃ v rest t, p.Gives src (.success v rest) ∧ v.written? limit = .ok t ∧
        m = "Unexpected " ++ t ∧ s = some src := by
  rw [Gives, inverted, bind_gives_iff]
  simp only [Run.ending_bind_eq_value, Run.ending_ofExcept_eq_value, fail, Run.ending_pure,
    Ending.value.injEq, Result.failure.injEq]
  grind

end Step

end Parselet
