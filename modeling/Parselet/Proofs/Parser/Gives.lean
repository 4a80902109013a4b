import Parselet.Parser.Combinator
import Parselet.Proofs.Parser.Depth

/-!
The results of parsers run without a bound on the depth of calls, each combinator in terms of the
parsers it is made from.
-/

namespace Parselet.Parser

variable {store : Store} {limit : Limit} {p q content separator : Parser} {ps : List Parser}
  {src rest m : Text} {v : Value} {s : Option Text} {r : Result}

theorem run_gives :
    (run store limit p).Gives src r ↔ (p.body.eval store limit (run store limit)).Gives src r := by
  unfold Step.Gives
  rw [run_ending]

theorem run_fails :
    (run store limit p).Fails src ↔ (p.body.eval store limit (run store limit)).Fails src := by
  simp only [Step.Fails, run_gives]

theorem gives_named {name : Text} :
    (run store limit (p.named name)).Gives src r ↔ (run store limit p).Gives src r := by
  rw [run_gives, run_gives]
  rfl

theorem fails_named {name : Text} :
    (run store limit (p.named name)).Fails src ↔ (run store limit p).Fails src := by
  simp only [Step.Fails, gives_named]

theorem exists_eq_of_pure {k : Parser} (hk : Parser.pure limit v = .ok k) :
    ∃ name, k = mk name (.pure v) := by
  obtain ⟨t, -, hk⟩ := except_bind_eq_ok_iff.1 hk
  cases hk
  exact ⟨_, rfl⟩

/-- Where it can be built, the parser that consumes nothing gives its value. -/
theorem gives_of_pure {k : Parser} (hk : Parser.pure limit v = .ok k) :
    (run store limit k).Gives src r ↔ r = .success v src := by
  obtain ⟨name, rfl⟩ := exists_eq_of_pure hk
  rw [run_gives]
  exact Step.gives_pure

theorem gives_fail : (run store limit (fail m)).Gives src r ↔ r = .failure m (some src) :=
  run_gives.trans Step.gives_fail

theorem gives_satisfy {accepts : CodePoint → Bool} :
    (run store limit (satisfy accepts m)).Gives src (.success v rest) ↔
      ∃ c, src = c :: rest ∧ accepts c = true ∧ v = .text [c] :=
  run_gives.trans Step.gives_satisfy_success

theorem fails_satisfy {accepts : CodePoint → Bool} :
    (run store limit (satisfy accepts m)).Fails src ↔ ∀ c t, src = c :: t → accepts c = false :=
  run_fails.trans Step.fails_satisfy

theorem gives_character {c : CodePoint} :
    (run store limit (character c)).Gives src (.success v rest) ↔
      src = c :: rest ∧ v = .text [c] :=
  run_gives.trans Step.gives_character_success

theorem fails_character {c : CodePoint} :
    (run store limit (character c)).Fails src ↔ ∀ t, src ≠ c :: t :=
  run_fails.trans Step.fails_character

theorem gives_string {t : Text} :
    (run store limit (string t)).Gives src (.success v rest) ↔ src = t ++ rest ∧ v = .text t :=
  run_gives.trans Step.gives_string_success

theorem fails_string {t : Text} : (run store limit (string t)).Fails src ↔ ¬ t <+: src :=
  run_fails.trans Step.fails_string

theorem gives_anycase {t : Text} :
    (run store limit (anycase t)).Gives src (.success v rest) ↔
      Step.beginsLike t src = true ∧ v = .text (src.take t.length) ∧ rest = src.drop t.length :=
  run_gives.trans Step.gives_anycase_success

theorem fails_anycase {t : Text} :
    (run store limit (anycase t)).Fails src ↔ Step.beginsLike t src = false :=
  run_fails.trans Step.fails_anycase

theorem gives_eof :
    (run store limit eof).Gives src (.success v rest) ↔ src = [] ∧ v = .nothing ∧ rest = [] :=
  run_gives.trans Step.gives_eof_success

theorem gives_map {f : Value.Function} :
    (run store limit (p.map f)).Gives src (.success v rest) ↔
      ∃ w, (run store limit p).Gives src (.success w rest) ∧ f limit w = .ok v :=
  run_gives.trans Step.gives_map_success

theorem gives_map_failure {f : Value.Function} :
    (run store limit (p.map f)).Gives src (.failure m s) ↔
      (run store limit p).Gives src (.failure m s) :=
  run_gives.trans Step.gives_map_failure

theorem fails_map {f : Value.Function} :
    (run store limit (p.map f)).Fails src ↔ (run store limit p).Fails src :=
  run_fails.trans Step.fails_map

theorem gives_flatMap {next : Limit → Value → Except Fault Parser} :
    (run store limit (p.flatMap next)).Gives src (.success v rest) ↔
      ∃ w mid k, (run store limit p).Gives src (.success w mid) ∧ next limit w = .ok k ∧
        (run store limit k).Gives mid (.success v rest) := by
  refine run_gives.trans (Step.gives_flatMap_success.trans ?_)
  simp only [except_map_eq_ok_iff]
  grind

theorem gives_flatMap_failure {next : Limit → Value → Except Fault Parser} :
    (run store limit (p.flatMap next)).Gives src (.failure m s) ↔
      (run store limit p).Gives src (.failure m s) ∨
        ∃ w mid k, (run store limit p).Gives src (.success w mid) ∧ next limit w = .ok k ∧
          (run store limit k).Gives mid (.failure m s) := by
  refine run_gives.trans (Step.gives_flatMap_failure.trans (or_congr_right ?_))
  simp only [except_map_eq_ok_iff]
  grind

theorem fails_flatMap {next : Limit → Value → Except Fault Parser} :
    (run store limit (p.flatMap next)).Fails src ↔
      (run store limit p).Fails src ∨
        ∃ w mid k, (run store limit p).Gives src (.success w mid) ∧ next limit w = .ok k ∧
          (run store limit k).Fails mid := by
  refine run_fails.trans (Step.fails_flatMap.trans (or_congr_right ?_))
  simp only [except_map_eq_ok_iff]
  grind

/-- A forward does what the parser it stands for does. -/
theorem gives_forward {f : Forward} (hf : store.target? f = some p) :
    (run store limit (forward f)).Gives src r ↔ (run store limit p).Gives src r := by
  rw [run_gives]
  simp only [forward, body, Body.eval, hf]

theorem fails_forward {f : Forward} (hf : store.target? f = some p) :
    (run store limit (forward f)).Fails src ↔ (run store limit p).Fails src := by
  simp only [Step.Fails, gives_forward hf]

theorem gives_andThen :
    (run store limit (p.andThen q)).Gives src (.success v rest) ↔
      ∃ w mid, (run store limit p).Gives src (.success w mid) ∧
        (run store limit q).Gives mid (.success v rest) := by
  rw [andThen, gives_named, gives_flatMap]
  grind

theorem gives_andThen_failure :
    (run store limit (p.andThen q)).Gives src (.failure m s) ↔
      (run store limit p).Gives src (.failure m s) ∨
        ∃ w mid, (run store limit p).Gives src (.success w mid) ∧
          (run store limit q).Gives mid (.failure m s) := by
  rw [andThen, gives_named, gives_flatMap_failure]
  grind

theorem fails_andThen :
    (run store limit (p.andThen q)).Fails src ↔
      (run store limit p).Fails src ∨
        ∃ w mid, (run store limit p).Gives src (.success w mid) ∧
          (run store limit q).Fails mid := by
  rw [andThen, fails_named, fails_flatMap]
  grind

theorem gives_followedBy :
    (run store limit (p.followedBy q)).Gives src (.success v rest) ↔
      ∃ w mid, (run store limit p).Gives src (.success v mid) ∧
        (run store limit q).Gives mid (.success w rest) := by
  rw [followedBy, gives_named, gives_flatMap]
  constructor
  · rintro ⟨w, mid, k, hp, hk, hmap⟩
    cases hk
    obtain ⟨w', hq, hv⟩ := gives_map.1 hmap
    cases hv
    exact ⟨w', mid, hp, hq⟩
  · rintro ⟨w, mid, hp, hq⟩
    exact ⟨v, mid, _, hp, rfl, gives_map.2 ⟨w, hq, rfl⟩⟩

theorem gives_followedBy_failure :
    (run store limit (p.followedBy q)).Gives src (.failure m s) ↔
      (run store limit p).Gives src (.failure m s) ∨
        ∃ w mid, (run store limit p).Gives src (.success w mid) ∧
          (run store limit q).Gives mid (.failure m s) := by
  rw [followedBy, gives_named, gives_flatMap_failure]
  grind [gives_map_failure]

theorem fails_followedBy :
    (run store limit (p.followedBy q)).Fails src ↔
      (run store limit p).Fails src ∨
        ∃ w mid, (run store limit p).Gives src (.success w mid) ∧
          (run store limit q).Fails mid := by
  rw [followedBy, fails_named, fails_flatMap]
  grind [fails_map]

theorem gives_orElse :
    (run store limit (p.orElse q)).Gives src (.success v rest) ↔
      (run store limit p).Gives src (.success v rest) ∨
        (run store limit p).Fails src ∧ (run store limit q).Gives src (.success v rest) :=
  run_gives.trans Step.gives_orElse_success

theorem gives_orElse_failure :
    (run store limit (p.orElse q)).Gives src (.failure m s) ↔
      (run store limit p).Fails src ∧ (run store limit q).Gives src (.failure m s) :=
  run_gives.trans Step.gives_orElse_failure

theorem fails_orElse :
    (run store limit (p.orElse q)).Fails src ↔
      (run store limit p).Fails src ∧ (run store limit q).Fails src :=
  run_fails.trans Step.fails_orElse

theorem gives_many :
    (run store limit p.many).Gives src (.success v rest) ↔
      ∃ vs, v = .list vs ∧ (run store limit p).Repeats src vs rest :=
  run_gives.trans Step.gives_many_success

theorem many_never_fails : ¬ (run store limit p.many).Fails src :=
  fun h => Step.many_never_fails (run_fails.1 h)

theorem gives_optional :
    (run store limit p.optional).Gives src (.success v rest) ↔
      (run store limit p).Gives src (.success v rest) ∨
        (run store limit p).Fails src ∧ v = .absent ∧ rest = src :=
  run_gives.trans Step.gives_optional_success

/-- What follows the first content is a repetition of a separator and a content. -/
theorem gives_sepBy :
    (run store limit (content.sepBy separator)).Gives src (.success v rest) ↔
      ((run store limit content).Fails src ∧ v = .list [] ∧ rest = src) ∨
        ∃ w mid vs, (run store limit content).Gives src (.success w mid) ∧ v = .list (w :: vs) ∧
          (Step.flatMap (run store limit separator) fun _ => .ok (run store limit content)).Repeats
            mid vs rest :=
  run_gives.trans Step.gives_sepBy_success

theorem gives_between :
    (run store limit (between p content q)).Gives src (.success v rest) ↔
      ∃ u before w after, (run store limit p).Gives src (.success u before) ∧
        (run store limit content).Gives before (.success v after) ∧
          (run store limit q).Gives after (.success w rest) := by
  rw [between, gives_named, gives_followedBy]
  simp only [gives_andThen]
  grind

/-- The first of the three that does not succeed makes the whole fail. -/
theorem gives_between_failure :
    (run store limit (between p content q)).Gives src (.failure m s) ↔
      (run store limit p).Gives src (.failure m s) ∨
        ∃ u before, (run store limit p).Gives src (.success u before) ∧
          ((run store limit content).Gives before (.failure m s) ∨
            ∃ w after, (run store limit content).Gives before (.success w after) ∧
              (run store limit q).Gives after (.failure m s)) := by
  rw [between, gives_named, gives_followedBy_failure, gives_andThen_failure]
  simp only [gives_andThen]
  grind

theorem fails_between_of_opening (h : (run store limit p).Fails src) :
    (run store limit (between p content q)).Fails src := by
  obtain ⟨m, s, hp⟩ := h
  exact ⟨m, s, gives_between_failure.2 (.inl hp)⟩

theorem gives_seq_nil :
    (run store limit (seq [])).Gives src (.success v rest) ↔ v = .tuple [] ∧ rest = src :=
  run_gives.trans Step.gives_seq_nil

theorem gives_seq_cons :
    (run store limit (seq (p :: ps))).Gives src (.success v rest) ↔
      ∃ w mid ws, (run store limit p).Gives src (.success w mid) ∧
        (run store limit (seq ps)).Gives mid (.success (.tuple ws) rest) ∧
          v = .tuple (w :: ws) := by
  rw [run_gives]
  refine Step.gives_seq_cons.trans ?_
  simp only [run_gives (p := seq ps)]
  rfl

theorem gives_seq_cons_failure :
    (run store limit (seq (p :: ps))).Gives src (.failure m s) ↔
      (run store limit p).Gives src (.failure m s) ∨
        ∃ w mid, (run store limit p).Gives src (.success w mid) ∧
          (run store limit (seq ps)).Gives mid (.failure m s) := by
  rw [run_gives]
  refine Step.gives_seq_cons_failure.trans ?_
  simp only [run_gives (p := seq ps)]
  rfl

theorem gives_oneOf_cons :
    (run store limit (oneOf (p :: ps))).Gives src (.success v rest) ↔
      (run store limit p).Gives src (.success v rest) ∨
        (run store limit p).Fails src ∧
          (run store limit (oneOf ps)).Gives src (.success v rest) := by
  rw [run_gives]
  refine Step.gives_oneOf_cons.trans ?_
  rw [run_gives (p := oneOf ps)]
  rfl

theorem fails_seq_cons :
    (run store limit (seq (p :: ps))).Fails src ↔
      (run store limit p).Fails src ∨
        ∃ w mid, (run store limit p).Gives src (.success w mid) ∧
          (run store limit (seq ps)).Fails mid := by
  rw [run_fails]
  refine Step.fails_seq_cons.trans ?_
  simp only [run_fails (p := seq ps)]
  rfl

theorem not_gives_oneOf_nil : ¬ (run store limit (oneOf [])).Gives src (.success v rest) :=
  fun h => Step.not_gives_oneOf_nil (run_gives.1 h)

theorem fails_oneOf_nil : (run store limit (oneOf [])).Fails src :=
  run_fails.2 Step.fails_oneOf_nil

theorem fails_oneOf_cons :
    (run store limit (oneOf (p :: ps))).Fails src ↔
      (run store limit p).Fails src ∧ (run store limit (oneOf ps)).Fails src := by
  rw [run_fails]
  refine Step.fails_oneOf_cons.trans ?_
  rw [run_fails (p := oneOf ps)]
  rfl

theorem exists_mem_of_gives_oneOf (h : (run store limit (oneOf ps)).Gives src (.success v rest)) :
    ∃ p ∈ ps, (run store limit p).Gives src (.success v rest) := by
  induction ps with
  | nil => exact absurd h not_gives_oneOf_nil
  | cons p ps ih =>
    rcases gives_oneOf_cons.1 h with hp | ⟨-, hps⟩
    · exact ⟨p, by simp, hp⟩
    · obtain ⟨q, hq, hgives⟩ := ih hps
      exact ⟨q, by simp [hq], hgives⟩

/-- A result that one alternative gives and no other contradicts is the result of the choice. -/
theorem gives_oneOf_of_mem (hp : p ∈ ps) (hgives : (run store limit p).Gives src (.success v rest))
    (hothers : ∀ q ∈ ps, (run store limit q).Fails src ∨
      (run store limit q).Gives src (.success v rest)) :
    (run store limit (oneOf ps)).Gives src (.success v rest) := by
  induction ps with
  | nil => cases hp
  | cons q ps ih =>
    rw [gives_oneOf_cons]
    -- an alternative before `p` fails, or it gives the result itself
    rcases hothers q (by simp) with hfails | hq
    · refine .inr ⟨hfails, ?_⟩
      rcases List.mem_cons.1 hp with rfl | hmem
      · exact absurd hgives hfails.not_success
      · exact ih hmem fun k hk => hothers k (List.mem_cons_of_mem _ hk)
    · exact .inl hq

theorem fails_oneOf :
    (run store limit (oneOf ps)).Fails src ↔ ∀ p ∈ ps, (run store limit p).Fails src := by
  induction ps with
  | nil => simp [fails_oneOf_nil]
  | cons p ps ih => rw [fails_oneOf_cons, ih, List.forall_mem_cons]

end Parselet.Parser
