import Parselet.Proofs.Parser.Repetition

/-!
Ordered choice between any parsers. The first one that does not fail decides, or the last one if all
others fail. Those before it are run once each and those after it are not run, whether the choice is
made from a list or two at a time, in whatever way these choices are nested.
-/

namespace Parselet

namespace Step

variable {p q : Step} {src : Text}

theorem fails_congr (h : (p src).ending = (q src).ending) : p.Fails src ↔ q.Fails src := by
  simp only [Fails, Gives, h]

/-- A choice between two is one from a list. -/
theorem orElse_eq_oneOf (p q : Step) (src : Text) : orElse p q src = oneOf [p, q] src := by
  refine bind_congr fun r => ?_
  cases r with
  | success v rest => rfl
  | failure m s =>
    refine (bind_pure (q src)).symm.trans (bind_congr fun r' => ?_)
    cases r' <;> rfl

theorem firstOf_eq {before after : List Step} (hbefore : ∀ q ∈ before, q.Fails src)
    (hp : p.Fails src → after = []) (r : Result) :
    firstOf r (before ++ p :: after) src =
      ⟨(p src).ending, (before ++ [p]).flatMap fun q => (q src).log⟩ := by
  induction before generalizing r with
  | nil =>
    simp only [List.nil_append, List.flatMap_singleton, firstOf, Bind.bind, Run.bind]
    cases hend : (p src).ending with
    | value r' =>
      cases r' with
      | success v rest => simp [Pure.pure]
      | failure m s =>
        rw [hp ⟨m, s, hend⟩]
        simp [firstOf, Pure.pure]
    | raised fault => rfl
    | unfinished => rfl
  | cons q before ih =>
    obtain ⟨⟨m, s, hq⟩, hbefore⟩ := List.forall_mem_cons.1 hbefore
    have hq : (q src).ending = .value (.failure m s) := hq
    simp only [List.cons_append, List.flatMap_cons, firstOf, Bind.bind, Run.bind, hq,
      ih hbefore]

end Step

namespace Parser

variable {store : Store} {limit : Limit} {src : Text} {p q : Parser}
  {ps qs before before' after after' : List Parser}

/-- Those of the parsers before `p` fail, and `p` does not, or no other one is left. -/
structure Decides (store : Store) (limit : Limit) (src : Text) (ps before : List Parser)
    (p : Parser) (after : List Parser) : Prop where
  split : ps = before ++ p :: after
  failing : ∀ q ∈ before, (run store limit q).Fails src
  deciding : (run store limit p).Fails src → after = []

theorem Decides.append_right (h : Decides store limit src ps before p after)
    (hp : ¬ (run store limit p).Fails src) (qs : List Parser) :
    Decides store limit src (ps ++ qs) before p (after ++ qs) where
  split := by rw [h.split, List.append_assoc, List.cons_append]
  failing := h.failing
  deciding hfails := absurd hfails hp

theorem Decides.append_left (hps : ∀ q ∈ ps, (run store limit q).Fails src)
    (h : Decides store limit src qs before p after) :
    Decides store limit src (ps ++ qs) (ps ++ before) p after where
  split := by rw [h.split, List.append_assoc]
  failing := List.forall_mem_append.2 ⟨hps, h.failing⟩
  deciding := h.deciding

/-- Where the one that decides fails, there is none after it, and all fail. -/
theorem Decides.all_fail (h : Decides store limit src ps before p after)
    (hp : (run store limit p).Fails src) :
    ps = before ++ [p] ∧ ∀ q ∈ ps, (run store limit q).Fails src := by
  obtain ⟨rfl, hbefore, hdeciding⟩ := h
  rw [hdeciding hp]
  exact ⟨rfl, List.forall_mem_append.2 ⟨hbefore, List.forall_mem_singleton.2 hp⟩⟩

/-- Only one place in the list decides. -/
theorem Decides.unique (h : Decides store limit src ps before p after)
    (h' : Decides store limit src ps before' q after') :
    before = before' ∧ p = q ∧ after = after' := by
  obtain ⟨rfl, hbefore, hp⟩ := h
  obtain ⟨hsplit, hbefore', hq⟩ := h'
  induction before generalizing before' with
  | nil =>
    cases before' with
    | nil =>
      cases hsplit
      exact ⟨rfl, rfl, rfl⟩
    | cons k before' =>
      -- `p` fails, so it would be the last one
      cases hsplit
      exact absurd (hp (hbefore' p (List.mem_cons_self ..))) (by simp)
  | cons k before ih =>
    rw [List.forall_mem_cons] at hbefore
    cases before' with
    | nil =>
      cases hsplit
      exact absurd (hq hbefore.1) (by simp)
    | cons k' before' =>
      rw [List.forall_mem_cons] at hbefore'
      obtain ⟨rfl, hothers⟩ := List.cons_eq_cons.1 hsplit
      obtain ⟨rfl, hpq⟩ := ih hbefore.2 hothers hbefore'.2
      exact ⟨rfl, hpq⟩

/-! ## Choice from a list -/

theorem answered_callOn {cs : List Parser} :
    ∀ c ∈ cs.map (·.callOn store limit src), c.AnsweredBy (run store limit) := by
  intro c hc
  obtain ⟨p, -, rfl⟩ := List.mem_map.1 hc
  rfl

/-- The choice calls the parsers up to the one that decides, in order, and ends as that one does. -/
theorem oneOf_performs (h : Decides store limit src ps before p after) :
    Performs (fun call => (oneOf ps).body.eval store limit call src)
      ((before ++ [p]).map (·.callOn store limit src)) (run store limit p src).ending := by
  intro call hcalls
  have hsame (q : Parser) (hq : q ∈ before ++ [p]) :
      (call q src).ending = (run store limit q src).ending :=
    hcalls _ (List.mem_map_of_mem hq)
  have hp := hsame p (by simp)
  have hbefore : ∀ step ∈ before.map call, step.Fails src := by
    refine List.forall_mem_map.2 fun q hq => ?_
    exact (Step.fails_congr (hsame q (by simp [hq]))).2 (h.failing q hq)
  have hdeciding : (call p).Fails src → after.map call = [] := fun hfails => by
    rw [h.deciding ((Step.fails_congr hp).1 hfails), List.map_nil]
  show Step.firstOf _ (ps.map call) src = _
  rw [h.split, List.map_append, List.map_cons, Step.firstOf_eq hbefore hdeciding, hp,
    List.flatMap_map, ← List.map_singleton, ← List.map_append, List.flatMap_map]
  rfl

theorem ending_oneOf (h : Decides store limit src ps before p after) :
    (run store limit (oneOf ps) src).ending = (run store limit p src).ending :=
  (oneOf_performs h).run_ending answered_callOn

/-- What a choice between two does is what the choice from a list of the two does. -/
theorem orElse_performs (h : Decides store limit src [p, q] before k after) :
    Performs (fun call => (p.orElse q).body.eval store limit call src)
      ((before ++ [k]).map (·.callOn store limit src)) (run store limit k src).ending :=
  fun call hcalls => (Step.orElse_eq_oneOf _ _ src).trans (oneOf_performs h call hcalls)

/-! ## Choices two at a time -/

/-- Parsers with brackets around each two things between which there is a choice. -/
inductive ChoiceTree where
  | leaf (p : Parser)
  | node (left right : ChoiceTree)

namespace ChoiceTree

variable {store : Store} {limit : Limit} {src : Text} {l r t : ChoiceTree}
  {calls calls' : List Call}

/-- The parsers in the order in which they are read. -/
def leaves : ChoiceTree → List Parser
  | leaf p => [p]
  | node l r => l.leaves ++ r.leaves

/-- The parser that is built along the brackets. -/
def parser : ChoiceTree → Parser
  | leaf p => p
  | node l r => l.parser.orElse r.parser

/-- The calls of leaves that a run of the tree makes, in order. A node makes those of the parts that
its body calls. -/
inductive LeafCalls (store : Store) (limit : Limit) (src : Text) : ChoiceTree → List Call → Prop
  | leaf {p : Parser} : LeafCalls store limit src (leaf p) [p.callOn store limit src]
  | left {l r : ChoiceTree} {calls : List Call} {e : Ending Result} :
      Performs (fun call => (node l r).parser.body.eval store limit call src)
        [l.parser.callOn store limit src] e →
      LeafCalls store limit src l calls → LeafCalls store limit src (node l r) calls
  | both {l r : ChoiceTree} {calls calls' : List Call} {e : Ending Result} :
      Performs (fun call => (node l r).parser.body.eval store limit call src)
        [l.parser.callOn store limit src, r.parser.callOn store limit src] e →
      LeafCalls store limit src l calls → LeafCalls store limit src r calls' →
      LeafCalls store limit src (node l r) (calls ++ calls')

/-- A node calls one part or both, so there is one list of calls. -/
theorem LeafCalls.unique (h : t.LeafCalls store limit src calls)
    (h' : t.LeafCalls store limit src calls') : calls = calls' := by
  have hone (l r : ChoiceTree) {e e' : Ending Result}
      (hleft : Performs (fun call => (node l r).parser.body.eval store limit call src)
        ([l.parser].map (·.callOn store limit src)) e)
      (hboth : Performs (fun call => (node l r).parser.body.eval store limit call src)
        ([l.parser, r.parser].map (·.callOn store limit src)) e') : False := by
    have heq := hleft.unique hboth answered_callOn answered_callOn
    simp at heq
  induction h generalizing calls' with
  | leaf =>
    cases h'
    rfl
  | left hleft _ ih =>
    cases h' with
    | left _ h' => exact ih h'
    | both hboth => exact (hone _ _ hleft hboth).elim
  | both hboth _ _ ihl ihr =>
    cases h' with
    | left hleft => exact (hone _ _ hleft hboth).elim
    | both _ hl' hr' => rw [ihl hl', ihr hr']

/-- What is left of a run where a node's first part decides. -/
theorem node_of_left (hl : ¬ (run store limit l.parser).Fails src)
    (hcalls : l.LeafCalls store limit src calls) (r : ChoiceTree) :
    (run store limit (node l r).parser src).ending = (run store limit l.parser src).ending ∧
      (node l r).LeafCalls store limit src calls := by
  have hdecides : Decides store limit src [l.parser, r.parser] [] l.parser [r.parser] :=
    ⟨rfl, by simp, fun h => absurd h hl⟩
  have hperforms := orElse_performs hdecides
  exact ⟨hperforms.run_ending answered_callOn, .left hperforms hcalls⟩

theorem node_of_both (hl : (run store limit l.parser).Fails src)
    (hcalls : l.LeafCalls store limit src calls) (hcalls' : r.LeafCalls store limit src calls') :
    (run store limit (node l r).parser src).ending = (run store limit r.parser src).ending ∧
      (node l r).LeafCalls store limit src (calls ++ calls') := by
  have hdecides : Decides store limit src [l.parser, r.parser] [l.parser] r.parser [] :=
    ⟨rfl, List.forall_mem_singleton.2 hl, fun _ => rfl⟩
  have hperforms := orElse_performs hdecides
  exact ⟨hperforms.run_ending answered_callOn, .both hperforms hcalls hcalls'⟩

/-- The leaf that decides among all leaves decides about the tree. -/
theorem exists_decides (store : Store) (limit : Limit) (src : Text) (t : ChoiceTree) :
    ∃ before p after, Decides store limit src t.leaves before p after ∧
      (run store limit t.parser src).ending = (run store limit p src).ending ∧
      t.LeafCalls store limit src ((before ++ [p]).map (·.callOn store limit src)) := by
  induction t with
  | leaf p => exact ⟨[], p, [], ⟨rfl, by simp, fun _ => rfl⟩, rfl, .leaf⟩
  | node l r ihl ihr =>
    obtain ⟨before, p, after, hl, hlending, hlcalls⟩ := ihl
    have hlfails := Step.fails_congr (p := run store limit l.parser) hlending
    by_cases hp : (run store limit p).Fails src
    · -- all leaves on the left fail, so one on the right decides
      obtain ⟨hleaves, hall⟩ := hl.all_fail hp
      obtain ⟨before', q, after', hr, hrending, hrcalls⟩ := ihr
      obtain ⟨hending, hcalls⟩ := node_of_both (hlfails.2 hp) hlcalls hrcalls
      refine ⟨_, q, after', hr.append_left hall, hending.trans hrending, ?_⟩
      rwa [List.append_assoc, List.map_append, hleaves]
    · obtain ⟨hending, hcalls⟩ := node_of_left (mt hlfails.1 hp) hlcalls r
      exact ⟨before, p, _, hl.append_right hp r.leaves, hending.trans hlending, hcalls⟩

end ChoiceTree

/-- A choice from a list of at least two parsers can be built, and one place of the list decides it:
the first parser that does not fail, or the last one if all others fail. The choice ends as the
parser there does, and so does each choice that is made between the same parsers two at a time. Both
run the parsers up to that place once each, in order, and none after it. -/
theorem oneOf_ends_as_bracketed (store : Store) (limit : Limit) (t : ChoiceTree)
    (h : 2 ≤ t.leaves.length) (src : Text) :
    atLeastTwo oneOf t.leaves = .ok (oneOf t.leaves) ∧
      (∃ before p after, Decides store limit src t.leaves before p after) ∧
      ∀ before p after, Decides store limit src t.leaves before p after →
        (∀ e, (oneOf t.leaves).EndsIn store limit src e ↔ p.EndsIn store limit src e) ∧
          (∀ e, t.parser.EndsIn store limit src e ↔ p.EndsIn store limit src e) ∧
          (∃ e, Performs (fun call => (oneOf t.leaves).body.eval store limit call src)
            ((before ++ [p]).map (·.callOn store limit src)) e) ∧
          ∀ calls, t.LeafCalls store limit src calls ↔
            calls = (before ++ [p]).map (·.callOn store limit src) := by
  obtain ⟨before₀, p₀, after₀, hdecides₀, hending, hcalls⟩ := t.exists_decides store limit src
  refine ⟨if_neg (Nat.not_lt_of_le h), ⟨_, _, _, hdecides₀⟩, fun before p after hdecides => ?_⟩
  obtain ⟨rfl, rfl, rfl⟩ := hdecides₀.unique hdecides
  simp only [endsIn_iff]
  exact ⟨fun e => by rw [ending_oneOf hdecides], fun e => by rw [hending],
    ⟨_, oneOf_performs hdecides⟩, fun calls => ⟨fun h' => h'.unique hcalls, fun heq => heq ▸ hcalls⟩⟩

/-- A letter that is not found, one that is, and behind it a forward that stands for nothing and is
never run. -/
theorem oneOf_ends_as_bracketed_letters :
    let t : ChoiceTree := .node (.leaf (character 'x'))
      (.node (.leaf (character 'a')) (.leaf (forward ⟨0, "later"⟩)))
    2 ≤ t.leaves.length ∧
      (oneOf t.leaves).EndsIn Store.empty none "ab" (.value (.success (.text "a") "b")) ∧
      t.parser.EndsIn Store.empty none "ab" (.value (.success (.text "a") "b")) ∧
      t.LeafCalls Store.empty none "ab"
        [(character 'x').callOn Store.empty none "ab",
          (character 'a').callOn Store.empty none "ab"] := by
  intro t
  have hlength : 2 ≤ t.leaves.length := by decide
  have hx : (run Store.empty none (character 'x')).Fails "ab" := by
    refine fails_character.2 fun u hu => ?_
    exact absurd (List.cons_eq_cons.1 hu).1 (by decide)
  have ha : (run Store.empty none (character 'a')).Gives "ab" (.success (.text "a") "b") :=
    gives_character.2 ⟨rfl, rfl⟩
  have hdecides : Decides Store.empty none "ab" t.leaves [character 'x'] (character 'a')
      [forward ⟨0, "later"⟩] :=
    ⟨rfl, List.forall_mem_singleton.2 hx, fun hfails => absurd ha hfails.not_success⟩
  obtain ⟨-, -, hall⟩ := oneOf_ends_as_bracketed Store.empty none t hlength "ab"
  obtain ⟨hlist, htree, -, hcalls⟩ := hall _ _ _ hdecides
  exact ⟨hlength, (hlist _).2 (endsIn_iff.2 ha), (htree _).2 (endsIn_iff.2 ha), (hcalls _).2 rfl⟩

end Parser

end Parselet
