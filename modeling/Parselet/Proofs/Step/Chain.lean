import Parselet.Proofs.Step.Gives

/-!
Chains of matches. A repetition runs a step on what the match before left, as long as a match leaves
less than it was given. So it goes along a chain, and no other chain ends where it stops.
-/

namespace Parselet.Step

variable {p q : Step} {src rest : Text} {v : Value} {steps steps' : List (Value × Text)}

/-- Matches one after another, each of which leaves less than it was given: their values, each with
what it leaves. -/
inductive Chain (p : Step) : Text → List (Value × Text) → Prop
  | nil {src : Text} : Chain p src []
  | cons {src rest : Text} {v : Value} {steps : List (Value × Text)} :
      p.Gives src (.success v rest) → rest.length < src.length → Chain p rest steps →
      Chain p src ((v, rest) :: steps)

/-- What the last match leaves, or all of the input if there is none. -/
def leftBy (src : Text) (steps : List (Value × Text)) : Text := (steps.map Prod.snd).getLastD src

/-- The input and what each match leaves. -/
def visited (src : Text) (steps : List (Value × Text)) : List Text := src :: steps.map Prod.snd

/-- No match on the input leaves less than the whole of it. -/
def Stuck (p : Step) (src : Text) : Prop :=
  ∀ v rest, p.Gives src (.success v rest) → src.length ≤ rest.length

/-- A chain that cannot be continued. -/
structure MaximalChain (p : Step) (src : Text) (steps : List (Value × Text)) : Prop where
  chain : p.Chain src steps
  stuck : p.Stuck (leftBy src steps)

@[simp] theorem leftBy_nil (src : Text) : leftBy src [] = src := rfl

@[simp] theorem leftBy_cons (src : Text) (v : Value) (rest : Text) (steps : List (Value × Text)) :
    leftBy src ((v, rest) :: steps) = leftBy rest steps :=
  List.getLastD_cons ..

@[simp] theorem visited_cons (src : Text) (v : Value) (rest : Text)
    (steps : List (Value × Text)) :
    visited src ((v, rest) :: steps) = src :: visited rest steps := rfl

theorem leftBy_mem_visited (src : Text) (steps : List (Value × Text)) :
    leftBy src steps ∈ visited src steps := by
  induction steps generalizing src with
  | nil => exact List.mem_singleton_self src
  | cons step steps ih =>
    rw [leftBy_cons, visited_cons]
    exact List.mem_cons_of_mem _ (ih step.2)

/-- Each text of a chain is shorter than the one before, so there are not many. -/
theorem Chain.length_add_le (h : p.Chain src steps) :
    steps.length + (leftBy src steps).length ≤ src.length := by
  induction h with
  | nil => simp
  | cons _ hlt _ ih =>
    rw [List.length_cons, leftBy_cons]
    omega

theorem Chain.length_visited_le (h : p.Chain src steps) :
    (visited src steps).length ≤ src.length + 1 := by
  have hle := h.length_add_le
  simp only [visited, List.length_cons, List.length_map]
  omega

/-- A chain stays one when the step does the same on all texts that it comes to. -/
theorem Chain.congr (h : p.Chain src steps)
    (hsame : ∀ t ∈ visited src steps, (p t).ending = (q t).ending) : q.Chain src steps := by
  induction h with
  | nil => exact .nil
  | cons hgives hlt _ ih =>
    obtain ⟨hfirst, hothers⟩ := List.forall_mem_cons.1 hsame
    exact .cons (hfirst.symm.trans hgives) hlt (ih hothers)

theorem MaximalChain.congr (h : p.MaximalChain src steps)
    (hsame : ∀ t ∈ visited src steps, (p t).ending = (q t).ending) : q.MaximalChain src steps where
  chain := h.chain.congr hsame
  stuck v rest hgives :=
    h.stuck v rest ((hsame _ (leftBy_mem_visited src steps)).trans hgives)

/-- Where the step has no result, a chain cannot be continued. -/
theorem stuck_of_no_result (h : ∀ r, ¬ p.Gives src r) : p.Stuck src :=
  fun _ _ hgives => absurd hgives (h _)

theorem MaximalChain.tail (h : p.MaximalChain src ((v, rest) :: steps)) :
    p.MaximalChain rest steps := by
  obtain ⟨_ | ⟨-, -, hchain⟩, hstuck⟩ := h
  exact ⟨hchain, by simpa using hstuck⟩

/-- Two chains that cannot be continued are the same chain, because a step has one result. -/
theorem MaximalChain.unique (h : p.MaximalChain src steps) (h' : p.MaximalChain src steps') :
    steps = steps' := by
  induction steps generalizing src steps' with
  | nil =>
    cases h'.chain with
    | nil => rfl
    | cons hgives hlt _ => exact absurd (h.stuck _ _ hgives) (Nat.not_le_of_lt hlt)
  | cons step steps ih =>
    cases h.chain with
    | cons hgives hlt _ =>
      cases h'.chain with
      | nil => exact absurd (h'.stuck _ _ hgives) (Nat.not_le_of_lt hlt)
      | cons hgives' _ _ =>
        cases hgives.unique hgives'
        rw [ih h.tail h'.tail]

/-- There is a chain that cannot be continued: lengths cannot go down for ever. -/
theorem exists_maximalChain (p : Step) (src : Text) : ∃ steps, p.MaximalChain src steps := by
  induction hn : src.length using Nat.strongRecOn generalizing src with
  | ind n ih =>
    subst hn
    by_cases hstuck : p.Stuck src
    · exact ⟨[], .nil, hstuck⟩
    · simp only [Stuck, not_forall, Nat.not_le] at hstuck
      obtain ⟨v, rest, hgives, hlt⟩ := hstuck
      obtain ⟨steps, hchain, hend⟩ := ih rest.length hlt rest rfl
      exact ⟨(v, rest) :: steps, .cons hgives hlt hchain, by simpa using hend⟩

/-- The repetition runs the step on the texts of the chain, in order and on no others, and it ends
as the last of these runs does. -/
theorem iterate_eq_of_maximalChain (h : p.MaximalChain src steps) :
    iterate p src =
      ⟨(p (leftBy src steps) >>= fun _ => Pure.pure (steps.map Prod.fst, leftBy src steps)).ending,
        (visited src steps).flatMap fun t => (p t).log⟩ := by
  obtain ⟨hchain, hstuck⟩ := h
  induction hchain with
  | @nil src =>
    rw [iterate]
    cases hend : (p src).ending with
    | value r =>
      cases r with
      | failure m s => simp [Bind.bind, Run.bind, Pure.pure, visited, hend]
      | success v rest =>
        have hle : src.length ≤ rest.length := hstuck v rest hend
        simp [Bind.bind, Run.bind, Pure.pure, visited, hend, Nat.not_lt_of_le hle]
    | raised fault => simp [Bind.bind, Run.bind, visited, hend]
    | unfinished => simp [Bind.bind, Run.bind, visited, hend]
  | @cons src rest v steps hgives hlt hchain ih =>
    rw [leftBy_cons] at hstuck
    have hgives : (p src).ending = .value (.success v rest) := hgives
    rw [iterate]
    simp only [Bind.bind, Run.bind, hgives, hlt, if_true, ih hstuck, leftBy_cons, visited_cons,
      List.map_cons, List.flatMap_cons]
    cases (p (leftBy rest steps)).ending <;> simp [Pure.pure]

end Parselet.Step
