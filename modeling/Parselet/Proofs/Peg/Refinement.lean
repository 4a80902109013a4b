import Parselet.Proofs.Peg.Steps

/-!
Parsers do what the parsing expressions they translate to derive. That a derivation is followed is
an induction on how the parser translates, with the rules taken for granted; that all else is
derived is an induction on the depth of calls.
-/

namespace Parselet.Peg

open Parselet.Parser

variable {store : Store} {rules : Nat → Option Peg} {call : Nat → Outcomes} {p q : Parser}
  {a b e : Peg} {C : Parser → Step}

/-! ## From derivations to runs -/

theorem run_ends (store : Store) (limit : Limit) (p : Parser) :
    (run store limit p).ends = (p.body.eval store limit (run store limit)).ends :=
  Step.ends_congr (fun _ _ => exists_congr fun _ => run_gives) fun _ => run_fails

theorem run_named_ends (limit : Limit) (name : Text) :
    (run store limit (p.named name)).ends = (run store limit p).ends :=
  Step.ends_congr (fun _ _ => exists_congr fun _ => gives_named) fun _ => fails_named

theorem lists_run_many : (run store none p.many).Lists (run store none p).Repeats :=
  ⟨gives_many, many_never_fails⟩

theorem lists_run_sepBy :
    (run store none (p.sepBy q)).Lists (Step.Separates (run store none p) (run store none q)) :=
  ⟨run_gives.trans Step.lists_sepBy.gives, fun h => Step.lists_sepBy.never_fails (run_fails.1 h)⟩

/-- A comparison of expressions and steps, in either direction, extends to many of them if it does
so to one more. -/
theorem joinAll_ends (rel : Outcomes → Outcomes → Prop) (op : Peg → Peg → Peg)
    {F : List Step → Step} (hone : ∀ s, (F [s]).ends = s.ends)
    (hcons : ∀ {s : Step} {ss : List Step} {a b : Peg}, rel (a.outcomes call) s.ends →
      rel (b.outcomes call) (F ss).ends → rel ((op a b).outcomes call) (F (s :: ss)).ends)
    {x : Parser × Peg} {xs : List (Parser × Peg)}
    (h : ∀ y ∈ x :: xs, rel (y.2.outcomes call) (C y.1).ends) :
    rel ((joinAll op x.2 (xs.map Prod.snd)).outcomes call)
      (F ((x.1 :: xs.map Prod.fst).map C)).ends := by
  induction xs generalizing x with
  | nil =>
    show rel (x.2.outcomes call) (F [C x.1]).ends
    rw [hone]
    exact h x (by simp)
  | cons y ys ih => exact hcons (h x (by simp)) (ih fun z hz => h z (List.mem_cons_of_mem x hz))

theorem seqAll_le_ends {x : Parser × Peg} {xs : List (Parser × Peg)}
    (h : ∀ y ∈ x :: xs, y.2.outcomes call ≤ (C y.1).ends) :
    (seqAll x.2 (xs.map Prod.snd)).outcomes call ≤
      (Step.seq ((x.1 :: xs.map Prod.fst).map C)).ends :=
  joinAll_ends (· ≤ ·) seq (fun _ => Step.ends_seq_singleton)
    (fun ha hb => (Outcomes.seq_mono ha hb).trans Step.ends_seq_cons.ge) h

theorem choiceAll_le_ends {x : Parser × Peg} {xs : List (Parser × Peg)}
    (h : ∀ y ∈ x :: xs, y.2.outcomes call ≤ (C y.1).ends) :
    (choiceAll x.2 (xs.map Prod.snd)).outcomes call ≤
      (Step.oneOf ((x.1 :: xs.map Prod.fst).map C)).ends :=
  joinAll_ends (· ≤ ·) choice (fun _ => Step.ends_oneOf_singleton)
    (fun ha hb => (Outcomes.choice_mono ha hb).trans Step.ends_oneOf_cons.ge) h

theorem andThen_le_ends (ha : a.outcomes call ≤ (run store none p).ends)
    (hb : b.outcomes call ≤ (run store none q).ends) :
    (seq a b).outcomes call ≤ (run store none (p.andThen q)).ends := by
  rw [andThen, run_named_ends, run_ends]
  exact (Outcomes.seq_mono ha hb).trans Step.ends_flatMap_const.ge

/-- Keeping the value of the first parser changes no outcome. -/
theorem followedBy_le_ends (ha : a.outcomes call ≤ (run store none p).ends)
    (hb : b.outcomes call ≤ (run store none q).ends) :
    (seq a b).outcomes call ≤ (run store none (p.followedBy q)).ends := by
  rw [followedBy, run_named_ends, run_ends]
  refine (Outcomes.seq_mono ha hb).trans (Step.seq_le_ends_flatMap fun v => ⟨_, rfl, ?_⟩)
  rw [run_ends store none (q.map _)]
  exact (Step.ends_map fun w => ⟨v, rfl⟩).ge

/-- The outcomes of expressions whose rules do what forwards do are those of the parsers. -/
theorem outcomes_le_ends (hshrink : ∀ i, (call i).Shrinks)
    (hcall : ∀ f : Forward, call f.id ≤ (run store none (forward f)).ends) (h : Translates p e) :
    e.outcomes call ≤ (run store none p).ends := by
  have hs (e : Peg) : (e.outcomes call).Shrinks := outcomes_shrink hshrink e
  induction h with
  | eof =>
    rw [run_ends]
    exact Step.ends_eof.ge
  | character c =>
    rw [run_ends]
    exact Step.ends_character.ge
  | satisfy accepts description =>
    rw [run_ends]
    exact Step.ends_satisfy.ge
  | string t =>
    rw [run_ends]
    exact (Step.ends_string call t).ge
  | seq _ ih =>
    rw [run_ends]
    exact seqAll_le_ends ih
  | oneOf _ ih =>
    rw [run_ends]
    exact choiceAll_le_ends ih
  | andThen _ _ iha ihb => exact andThen_le_ends iha ihb
  | followedBy _ _ iha ihb => exact followedBy_le_ends iha ihb
  | between _ _ _ iha ihb ihc =>
    rw [between, run_named_ends]
    exact followedBy_le_ends (andThen_le_ends iha ihb) ihc
  | orElse _ _ iha ihb =>
    rw [run_ends]
    exact (Outcomes.choice_mono iha ihb).trans Step.ends_orElse.ge
  | many _ ih => exact Step.star_le_ends lists_run_many ih (hs _)
  | many1 _ ih =>
    rw [run_ends]
    exact Step.plus_le_ends lists_run_many ih (hs _)
  | optional _ ih =>
    rw [run_ends]
    exact (Outcomes.choice_mono ih le_rfl).trans Step.ends_optional.ge
  | lookahead _ ih =>
    rw [run_ends]
    exact (Outcomes.not_mono (Outcomes.not_mono ih)).trans Step.ends_lookahead.ge
  | inverted _ ih =>
    rw [run_ends]
    exact (Outcomes.not_mono ih).trans Step.ends_inverted.ge
  | sepBy _ _ iha ihb => exact Step.separated_le_ends lists_run_sepBy iha ihb (hs _) (hs _)
  | sepBy1 _ _ iha ihb =>
    rw [run_ends]
    exact Step.separated1_le_ends lists_run_sepBy iha ihb (hs _) (hs _)
  | named name _ ih =>
    rw [run_named_ends]
    exact ih
  | map hf _ ih =>
    rw [run_ends]
    exact ih.trans (Step.ends_map hf).ge
  | forward f => exact hcall f

/-- What a forward does, as far as the end of the input is left. -/
def forwardOutcomes (store : Store) (i : Nat) : Outcomes := fun src o =>
  (∀ rest ∈ o, rest <:+ src) ∧ ∀ f : Forward, f.id = i → (run store none (forward f)).ends src o

theorem ends_of_derives (hstore : TranslatesStore store rules) (h : Translates p e) {src : Text}
    {o : Option Text} (hderives : Derives rules e src o) : (run store none p).ends src o := by
  have hshrink (i : Nat) : (forwardOutcomes store i).Shrinks := fun _ _ h => h.1 _ rfl
  have hle {p : Parser} {e : Peg} (h : Translates p e) :
      e.outcomes (forwardOutcomes store) ≤ (run store none p).ends :=
    outcomes_le_ends hshrink (fun f _ _ h => h.2 f rfl) h
  -- a rule does what the parser of its forward does, by what has been shown of all parsers
  refine hle h src o (outcomes_of_derives (fun i e he src o ho => ⟨?_, ?_⟩) hderives)
  · intro rest hrest
    cases hrest
    exact outcomes_shrink hshrink e src rest ho
  · rintro f rfl
    have hrel := hstore f
    rw [he] at hrel
    generalize htarget : store.target? f = target at hrel
    cases hrel with
    | some htranslates =>
      have hends := hle htranslates src o ho
      cases o with
      | none => exact (fails_forward htarget).2 hends
      | some rest =>
        obtain ⟨v, hv⟩ := hends
        exact ⟨v, (gives_forward htarget).2 hv⟩

/-! ## From runs to derivations -/

/-- The run of a parser with calls nested at most `d` deep. -/
abbrev runOf (store : Store) (d : Nat) (p : Parser) : Step := runTo store { limit := none } d p

theorem not_runOf_zero_ends {src : Text} {o : Option Text} : ¬ (runOf store 0 p).ends src o := by
  cases o with
  | none =>
    rintro ⟨m, s, h⟩
    cases h
  | some rest =>
    rintro ⟨v, h⟩
    cases h

theorem ends_le_seqAll {x : Parser × Peg} {xs : List (Parser × Peg)}
    (h : ∀ y ∈ x :: xs, (C y.1).ends ≤ y.2.outcomes call) :
    (Step.seq ((x.1 :: xs.map Prod.fst).map C)).ends ≤
      (seqAll x.2 (xs.map Prod.snd)).outcomes call :=
  joinAll_ends (· ≥ ·) seq (fun _ => Step.ends_seq_singleton)
    (fun ha hb => Step.ends_seq_cons.le.trans (Outcomes.seq_mono ha hb)) h

theorem ends_le_choiceAll {x : Parser × Peg} {xs : List (Parser × Peg)}
    (h : ∀ y ∈ x :: xs, (C y.1).ends ≤ y.2.outcomes call) :
    (Step.oneOf ((x.1 :: xs.map Prod.fst).map C)).ends ≤
      (choiceAll x.2 (xs.map Prod.snd)).outcomes call :=
  joinAll_ends (· ≥ ·) choice (fun _ => Step.ends_oneOf_singleton)
    (fun ha hb => Step.ends_oneOf_cons.le.trans (Outcomes.choice_mono ha hb)) h

theorem productive_of_mem_joinAll {op : Peg → Peg → Peg}
    (hop : ∀ {a b : Peg}, (op a b).Productive rules → a.Productive rules ∧ b.Productive rules)
    {e e' : Peg} {es : List Peg} (h : (joinAll op e es).Productive rules) (hmem : e' ∈ e :: es) :
    e'.Productive rules := by
  induction es generalizing e with
  | nil =>
    rw [List.mem_singleton.1 hmem]
    exact h
  | cons e₂ es ih =>
    obtain ⟨he, hes⟩ := hop h
    rcases List.mem_cons.1 hmem with rfl | hmem
    · exact he
    · exact ih hes hmem

/-- The runs of depth `d` of all translated parsers are derived. -/
def Derived (store : Store) (rules : Nat → Option Peg) (d : Nat) : Prop :=
  ∀ {p : Parser} {e : Peg}, Translates p e → e.Productive rules →
    (runOf store d p).ends ≤ e.outcomes (derived rules)

theorem Derived.followedBy {d : Nat} (ih : Derived store rules d) (ha : Translates p a)
    (hb : Translates q b) (hprod : (seq a b).Productive rules) :
    (runOf store (d + 1) (p.followedBy q)).ends ≤ (seq a b).outcomes (derived rules) := by
  refine (Step.ends_flatMap_le fun v k hk => ?_).trans (Outcomes.seq_mono (ih ha hprod.1) le_rfl)
  cases hk
  exact ih (.map (fun w => ⟨v, rfl⟩) hb) hprod.2

/-- An expression that is repeated never matches without consuming. -/
theorem not_outcomes_self (h : ∀ src, ¬ Derives rules a src (some src)) (src : Text) :
    ¬ a.outcomes (derived rules) src (some src) := fun hs => h src (derives_of_outcomes hs)

theorem derived_succ (hstore : TranslatesStore store rules)
    (hrules : ∀ i e, rules i = some e → e.Productive rules) {d : Nat}
    (ih : ∀ k ≤ d, Derived store rules k) : Derived store rules (d + 1) := by
  have hs (e : Peg) : (e.outcomes (derived rules)).Shrinks := outcomes_shrink derived_shrinks e
  have ihd : Derived store rules d := ih d le_rfl
  intro p e h hprod
  induction h with
  | eof => exact Step.ends_eof.le
  | character c => exact Step.ends_character.le
  | satisfy accepts description => exact Step.ends_satisfy.le
  | string t => exact (Step.ends_string _ t).le
  | @seq x xs h =>
    refine ends_le_seqAll (C := runOf store d) fun y hy => ihd (h y hy) ?_
    exact productive_of_mem_joinAll id hprod (List.mem_map_of_mem (f := Prod.snd) hy)
  | @oneOf x xs h =>
    refine ends_le_choiceAll (C := runOf store d) fun y hy => ihd (h y hy) ?_
    exact productive_of_mem_joinAll id hprod (List.mem_map_of_mem (f := Prod.snd) hy)
  | andThen ha hb =>
    exact Step.ends_flatMap_const.le.trans
      (Outcomes.seq_mono (ihd ha hprod.1) (ihd hb hprod.2))
  | followedBy ha hb => exact ihd.followedBy ha hb hprod
  | between ha hb hc => exact ihd.followedBy (.andThen ha hb) hc hprod
  | orElse ha hb =>
    exact Step.ends_orElse.le.trans (Outcomes.choice_mono (ihd ha hprod.1) (ihd hb hprod.2))
  | many ha =>
    exact Step.ends_le_star Step.lists_many (ihd ha hprod.1) (hs _) (not_outcomes_self hprod.2)
  | many1 ha =>
    -- the repetition inside takes one more call
    cases d with
    | zero => exact fun src o h => absurd h (Step.not_ends_nonempty fun _ => not_runOf_zero_ends)
    | succ d =>
      exact Step.ends_le_plus Step.lists_many (ih d (Nat.le_succ d) ha hprod.1) (hs _)
        (not_outcomes_self hprod.2.2)
  | optional ha =>
    exact Step.ends_optional.le.trans (Outcomes.choice_mono (ihd ha hprod.1) le_rfl)
  | lookahead ha =>
    exact Step.ends_lookahead.le.trans (Outcomes.not_mono (Outcomes.not_mono (ihd ha hprod)))
  | inverted ha => exact Step.ends_inverted.le.trans (Outcomes.not_mono (ihd ha hprod))
  | sepBy ha hb =>
    obtain ⟨⟨ha', ⟨hb', -⟩, hne⟩, -⟩ := hprod
    exact Step.ends_le_separated Step.lists_sepBy (ihd ha ha') (ihd hb hb') (hs _) (hs _)
      (not_outcomes_self hne)
  | sepBy1 ha hb =>
    obtain ⟨ha', ⟨hb', -⟩, hne⟩ := hprod
    cases d with
    | zero => exact fun src o h => absurd h (Step.not_ends_nonempty fun _ => not_runOf_zero_ends)
    | succ d =>
      have ihd : Derived store rules d := ih d (Nat.le_succ d)
      exact Step.ends_le_separated1 Step.lists_sepBy (ihd ha ha') (ihd hb hb') (hs _) (hs _)
        (not_outcomes_self hne)
  -- the name is no call of its own
  | named name _ ihn => exact ihn hprod
  | map hf ha => exact (Step.ends_map hf).le.trans (ihd ha hprod)
  | forward f =>
    have hrel := hstore f
    show ((Body.forward f).eval store none (runOf store d)).ends ≤ derived rules f.id
    intro src o hends
    cases htarget : store.target? f with
    | none =>
      simp only [Body.eval, htarget] at hends
      cases o with
      | none =>
        obtain ⟨m, s, hgives⟩ := hends
        exact absurd hgives Step.not_gives_raise
      | some rest =>
        obtain ⟨v, hgives⟩ := hends
        exact absurd hgives Step.not_gives_raise
    | some p =>
      simp only [Body.eval, htarget] at hends
      rw [htarget] at hrel
      generalize hrule : rules f.id = rule at hrel
      cases hrel with
      | some htranslates =>
        have ho := ihd htranslates (hrules _ _ hrule) src o hends
        exact .rule hrule (derives_of_outcomes ho)

theorem derived_all (hstore : TranslatesStore store rules)
    (hrules : ∀ i e, rules i = some e → e.Productive rules) (d : Nat) : Derived store rules d := by
  induction d using Nat.strongRecOn with
  | ind d ih =>
    cases d with
    | zero => exact fun _ _ src o h => absurd h not_runOf_zero_ends
    | succ d => exact derived_succ hstore hrules fun k hk => ih k (Nat.lt_succ_of_le hk)

/-! ## Agreement -/

/-- Without a limit, the parser succeeds on `src` with the given rest, or, for `none`, it fails. -/
def Answers (store : Store) (p : Parser) (src : Text) : Option Text → Prop
  | some rest => ∃ v, EndsIn store none p src (.value (.success v rest))
  | none => ∃ m s, EndsIn store none p src (.value (.failure m s))

theorem answers_iff {src : Text} {o : Option Text} :
    Answers store p src o ↔ (run store none p).ends src o := by
  cases o with
  | none => exact exists_congr fun m => exists_congr fun s => endsIn_iff
  | some rest => exact exists_congr fun v => endsIn_iff

theorem exists_runOf_ends {src : Text} {o : Option Text} (h : (run store none p).ends src o) :
    ∃ d, (runOf store d p).ends src o := by
  obtain ⟨d, hd⟩ := run_eventually store none p src
  have hd := hd d le_rfl
  cases o with
  | none =>
    obtain ⟨m, s, h⟩ := h
    exact ⟨d, m, s, hd.trans h⟩
  | some rest =>
    obtain ⟨v, h⟩ := h
    exact ⟨d, v, hd.trans h⟩

/-- A parser answers what the expression it translates to derives, and nothing else if no repeated
expression matches without consuming. -/
theorem answers_as_derived (hstore : TranslatesStore store rules) (h : Translates p e) :
    (∀ src o, Derives rules e src o → Answers store p src o) ∧
      (e.Productive rules → (∀ i b, rules i = some b → b.Productive rules) →
        ∀ src o, Answers store p src o → Derives rules e src o) := by
  constructor
  · intro src o hderives
    exact answers_iff.2 (ends_of_derives hstore h hderives)
  · intro hprod hrules src o hanswers
    obtain ⟨d, hends⟩ := exists_runOf_ends (answers_iff.1 hanswers)
    exact derives_of_outcomes (derived_all hstore hrules d h hprod src o hends)

/-! A grammar of nested parentheses around the letter `x`. -/

def nest : Forward := ⟨0, "nest"⟩

def nestParser : Parser :=
  (between (character '(') (Parser.many (forward nest)) (character ')')).orElse (character 'x')

def nestStore : Store := ⟨[some nestParser]⟩

def nestRules : Nat → Option Peg
  | 0 => some (choice (seq (seq (exactly '(') (star (rule 0))) (exactly ')')) (exactly 'x'))
  | _ => none

theorem length_of_exactly {c : CodePoint} {src rest : Text}
    (h : Derives rules (exactly c) src (some rest)) : src.length = rest.length + 1 := by
  rw [exactly] at h
  cases h with
  | char_match => rfl

/-- Every match of the grammar consumes a parenthesis or the letter. -/
theorem nest_productive (src : Text) : ¬ Derives nestRules (rule 0) src (some src) := by
  intro h
  cases h with
  | rule he h =>
    cases he
    cases h with
    | choice_first h =>
      cases h with
      | seq_next h hclose =>
        cases h with
        | seq_next hopen hstar =>
          have hlength := length_of_exactly hopen
          have := hstar.suffix.length_le
          have := length_of_exactly hclose
          omega
    | choice_second _ h =>
      have := length_of_exactly h
      omega

theorem nest_answers_as_derived :
    (TranslatesStore nestStore nestRules ∧ Translates (forward nest) (rule 0) ∧
      (rule 0).Productive nestRules ∧ ∀ i b, nestRules i = some b → b.Productive nestRules) ∧
      ∀ src o, Answers nestStore (forward nest) src o ↔ Derives nestRules (rule 0) src o := by
  have hnest : Translates nestParser
      (choice (seq (seq (exactly '(') (star (rule 0))) (exactly ')')) (exactly 'x')) :=
    .orElse (.between (.character _) (.many (.forward nest)) (.character _)) (.character _)
  have hstore : TranslatesStore nestStore nestRules := by
    rintro ⟨i, name⟩
    cases i with
    | zero => exact .some hnest
    | succ i => exact .none
  have hrules : ∀ i b, nestRules i = some b → b.Productive nestRules := by
    intro i b hb
    cases i with
    | zero =>
      cases hb
      exact ⟨⟨⟨trivial, trivial, nest_productive⟩, trivial⟩, trivial⟩
    | succ i => cases hb
  have h := answers_as_derived hstore (.forward nest)
  exact ⟨⟨hstore, .forward nest, trivial, hrules⟩,
    fun src o => ⟨h.2 trivial hrules src o, h.1 src o⟩⟩

end Parselet.Peg
