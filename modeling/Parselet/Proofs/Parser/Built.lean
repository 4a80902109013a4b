import Parselet.Proofs.Parser.Calls
import Parselet.Proofs.Parser.Gives
import Parselet.Proofs.Step.Within

/-!
Parsers that are built from others stay within their input as these do. What they are built of is
taken as given; forwards make parsers recursive, so the argument is by the depth of calls.
-/

namespace Parselet

theorem Settings.visit_ending_iff {s : Settings} {name src : Text} {run : Run Result} {r : Result} :
    (s.visit name src run).ending = .value r ↔
      run.ending = .value r ∧ (s.debug = true → ∃ t, r.written? s.limit = .ok t) := by
  unfold visit
  by_cases h : s.debug = true
  · simp only [h, if_true, Run.ending_bind_eq_value, Run.ending_ofExcept_eq_value, Run.ending_pure,
      Run.emit, Ending.value.injEq]
    grind
  · simp [h]

namespace Parser

variable {base : Parser → Prop} {store : Store} {p q : Parser}

/-- Whatever the circumstances of a run, its result stays within the input. -/
def StaysWithin (store : Store) (p : Parser) : Prop :=
  ∀ (s : Settings) (src : Text) (r : Result), (p.parse store s src).ending = .value r → r.Within src

/-- The parsers made from those of `base` and from the forwards that are known. A continuation has
to make one for each value, and a custom parser has to stay within the input by itself. -/
inductive MadeFrom (base : Parser → Prop) (known : Forward → Prop) : Parser → Prop
  | base {p : Parser} : base p → MadeFrom base known p
  | named {p : Parser} (name : Text) : MadeFrom base known p → MadeFrom base known (p.named name)
  | pure (name : Text) (v : Value) : MadeFrom base known (mk name (.pure v))
  | fail (name m : Text) : MadeFrom base known (mk name (.fail m))
  | eof (name : Text) : MadeFrom base known (mk name .eof)
  | character (name : Text) (c : CodePoint) : MadeFrom base known (mk name (.character c))
  | satisfy (name : Text) (accepts : CodePoint → Bool) (m : Text) :
      MadeFrom base known (mk name (.satisfy accepts m))
  | string (name t : Text) : MadeFrom base known (mk name (.string t))
  | anycase (name t : Text) : MadeFrom base known (mk name (.anycase t))
  | regex (name : Text) (m : Matcher) : MadeFrom base known (mk name (.regex m))
  | map (name : Text) {p : Parser} (f : Value.Function) : MadeFrom base known p →
      MadeFrom base known (mk name (.map p f))
  | flatMap (name : Text) {p : Parser} {next : Limit → Value → Except Fault Parser} :
      MadeFrom base known p → (∀ limit v q, next limit v = .ok q → MadeFrom base known q) →
      MadeFrom base known (mk name (.flatMap p next))
  | orElse (name : Text) {p q : Parser} : MadeFrom base known p → MadeFrom base known q →
      MadeFrom base known (mk name (.orElse p q))
  | many (name : Text) {p : Parser} : MadeFrom base known p →
      MadeFrom base known (mk name (.many p))
  | nonempty (name : Text) {p : Parser} : MadeFrom base known p →
      MadeFrom base known (mk name (.nonempty p))
  | optional (name : Text) {p : Parser} : MadeFrom base known p →
      MadeFrom base known (mk name (.optional p))
  | sepBy (name : Text) {p q : Parser} : MadeFrom base known p → MadeFrom base known q →
      MadeFrom base known (mk name (.sepBy p q))
  | seq (name : Text) {ps : List Parser} : (∀ p ∈ ps, MadeFrom base known p) →
      MadeFrom base known (mk name (.seq ps))
  | oneOf (name : Text) {ps : List Parser} : (∀ p ∈ ps, MadeFrom base known p) →
      MadeFrom base known (mk name (.oneOf ps))
  | lookahead (name : Text) {p : Parser} : MadeFrom base known p →
      MadeFrom base known (mk name (.lookahead p))
  | inverted (name : Text) {p : Parser} : MadeFrom base known p →
      MadeFrom base known (mk name (.inverted p))
  | forward (name : Text) {f : Forward} : known f → MadeFrom base known (mk name (.forward f))
  | custom (name : Text) {f : Text → Except Fault Result} :
      (∀ src r, f src = .ok r → r.Within src) → MadeFrom base known (mk name (.custom f))

/-- The parsers built from those of `base`, with any forwards. -/
abbrev Built (base : Parser → Prop) : Parser → Prop := MadeFrom base fun _ => True

end Parser

/-- All forwards that are defined stand for parsers that `Q` holds of. -/
def Store.All (Q : Parser → Prop) (store : Store) : Prop := ∀ f p, store.target? f = some p → Q p

/-- All forwards that are defined stand for built parsers. -/
abbrev Store.Built (base : Parser → Prop) (store : Store) : Prop := store.All (Parser.Built base)

namespace Parser

variable {base : Parser → Prop} {store : Store} {p q : Parser}

/-! ## What built parsers are made of -/

section Parts

variable {known : Forward → Prop}

/-- Parts of a parser that is made are made too, unless it is taken as given. -/
theorem MadeFrom.of_has (hbase : ∀ p q, base p → ¬ p.body.Has q) (hp : MadeFrom base known p)
    (hq : p.body.Has q) : MadeFrom base known q := by
  induction hp with
  | base h => exact absurd hq (hbase _ q h)
  | named name _ ih => exact ih hq
  | pure | fail | eof | character | satisfy | string | anycase | regex | forward | custom =>
    exact hq.elim
  | map name f hp => exact hq ▸ hp
  | flatMap name hp hnext =>
    rcases hq with rfl | ⟨limit, v, hk⟩
    · exact hp
    · exact hnext limit v q hk
  | orElse name hp hp' => rcases hq with rfl | rfl <;> assumption
  | sepBy name hp hp' => rcases hq with rfl | rfl <;> assumption
  | many name hp | nonempty name hp | optional name hp | lookahead name hp | inverted name hp =>
    exact hq ▸ hp
  | seq name hps => exact hps q hq
  | oneOf name hps => exact hps q hq

theorem MadeFrom.of_reaches (hbase : ∀ p q, base p → ¬ p.body.Has q)
    (hstore : ∀ q f t, store.Reaches p q → q.body = .forward f → store.target? f = some t →
      MadeFrom base known t)
    (hp : MadeFrom base known p) (hq : store.Reaches p q) : MadeFrom base known q := by
  induction hq with
  | refl => exact hp
  | tail hq hcall ih =>
    rcases hcall with hpart | ⟨f, hf, htarget⟩
    · exact ih.of_has hbase hpart
    · exact hstore _ f _ hq hf htarget

theorem MadeFrom.known_of_forward {f : Forward} (hbase : ∀ p f, base p → p.body ≠ .forward f)
    (hp : MadeFrom base known p) (hf : p.body = .forward f) : known f := by
  induction hp with
  | base h => exact absurd hf (hbase _ f h)
  | named name _ ih => exact ih hf
  | forward name hknown =>
    cases hf
    exact hknown
  | _ => cases hf

end Parts

/-! ## Staying within the input -/

theorem staysWithin_all {C : Parser → Step} {ps : List Parser}
    (h : ∀ p ∈ ps, (C p).StaysWithin) : ∀ k ∈ ps.map C, k.StaysWithin := by
  intro k hk
  obtain ⟨p, hp, rfl⟩ := List.mem_map.1 hk
  exact h p hp

theorem staysWithin_runTo_succ {s : Settings} {d : Nat}
    (h : (p.body.eval store s.limit (runTo store s d)).StaysWithin) :
    (runTo store s (d + 1) p).StaysWithin :=
  fun src r hr => h src r (Settings.visit_ending_iff.1 hr).1

/-- One more call around parsers that stay within the input. -/
theorem Built.runTo_succ (hbase : ∀ p, base p → StaysWithin store p) (hstore : store.Built base)
    {s : Settings} {d : Nat} (ih : ∀ p, Built base p → (runTo store s d p).StaysWithin)
    (hp : Built base p) : (runTo store s (d + 1) p).StaysWithin := by
  -- the parts of a body are run one call deeper, which the hypothesis is about; a new name is not a
  -- call, and so the induction on how the parser is built is needed for it
  induction hp with
  | @base p hp =>
    -- this run is a whole one with another greatest depth
    intro src r hr
    refine hbase p hp { s with depth := d + 1 } src r ?_
    rw [parse, runTo_with_depth]
    exact hr
  | named name _ ihp =>
    intro src r hr
    exact ihp src r (Settings.visit_ending_iff.2 (Settings.visit_ending_iff.1 hr))
  | pure name v => exact staysWithin_runTo_succ (Step.staysWithin_pure v)
  | fail name m => exact staysWithin_runTo_succ (Step.staysWithin_fail m)
  | eof name => exact staysWithin_runTo_succ Step.staysWithin_eof
  | character name c => exact staysWithin_runTo_succ (Step.staysWithin_satisfy _ _)
  | satisfy name accepts m => exact staysWithin_runTo_succ (Step.staysWithin_satisfy _ _)
  | string name t => exact staysWithin_runTo_succ (Step.staysWithin_string t)
  | anycase name t => exact staysWithin_runTo_succ (Step.staysWithin_anycase t)
  | regex name m => exact staysWithin_runTo_succ (Step.staysWithin_regex m)
  | map name f hp => exact staysWithin_runTo_succ ((ih _ hp).map _)
  | flatMap name hp hnext =>
    refine staysWithin_runTo_succ ((ih _ hp).flatMap fun v k hk => ?_)
    obtain ⟨q, hq, rfl⟩ := except_map_eq_ok_iff.1 hk
    exact ih q (hnext _ v q hq)
  | orElse name hp hq => exact staysWithin_runTo_succ ((ih _ hp).orElse (ih _ hq))
  | many name hp => exact staysWithin_runTo_succ (ih _ hp).many
  | nonempty name hp => exact staysWithin_runTo_succ (ih _ hp).nonempty
  | optional name hp => exact staysWithin_runTo_succ (ih _ hp).optional
  | sepBy name hp hq => exact staysWithin_runTo_succ ((ih _ hp).sepBy (ih _ hq))
  | seq name hps =>
    exact staysWithin_runTo_succ
      (Step.StaysWithin.seq (staysWithin_all fun p hp => ih p (hps p hp)))
  | oneOf name hps =>
    exact staysWithin_runTo_succ
      (Step.StaysWithin.oneOf (staysWithin_all fun p hp => ih p (hps p hp)))
  | lookahead name hp => exact staysWithin_runTo_succ (ih _ hp).lookahead
  | inverted name hp => exact staysWithin_runTo_succ (Step.staysWithin_inverted _ _)
  | @forward name f _ =>
    refine staysWithin_runTo_succ ?_
    simp only [body, Body.eval]
    split
    · next p hf => exact ih p (hstore f p hf)
    · exact Step.staysWithin_raise _
  | custom name hf => exact staysWithin_runTo_succ (Step.staysWithin_custom hf)

theorem Built.staysWithin (hbase : ∀ p, base p → StaysWithin store p) (hstore : store.Built base)
    (hp : Built base p) : StaysWithin store p := by
  have hall (s : Settings) (d : Nat) : ∀ p, Built base p → (runTo store s d p).StaysWithin := by
    induction d with
    | zero =>
      intro p _ src r hr
      cases hr
    | succ d ih => exact fun p hp => hp.runTo_succ hbase hstore ih
  exact fun s src r hr => hall s s.depth p hp src r hr

end Parser

end Parselet
