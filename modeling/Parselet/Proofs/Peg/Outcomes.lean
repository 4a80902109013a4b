import Mathlib.Order.Basic
import Parselet.Proofs.Peg.Grammar

/-!
What may happen on each input, as a relation, with an operator for each kind of expression. What an
expression derives is made of what the rules in it derive by these operators.
-/

namespace Parselet

/-- A rest is left on an input, or, which is `none`, it is refused. -/
abbrev Outcomes := Text → Option Text → Prop

namespace Outcomes

variable {R R' S S' : Outcomes} {src mid rest : Text} {o : Option Text}

def empty : Outcomes := fun src o => o = some src

def char (accepts : CodePoint → Bool) : Outcomes
  | [], o => o = none
  | c :: t, o => o = if accepts c then some t else none

def seq (R S : Outcomes) : Outcomes := fun src o =>
  (∃ mid, R src (some mid) ∧ S mid o) ∨ (R src none ∧ o = none)

def choice (R S : Outcomes) : Outcomes := fun src o =>
  (∃ rest, R src (some rest) ∧ o = some rest) ∨ (R src none ∧ S src o)

inductive star (R : Outcomes) : Outcomes
  | stop {src : Text} : R src none → star R src (some src)
  | next {src mid rest : Text} : R src (some mid) → star R mid (some rest) → star R src (some rest)

def not (R : Outcomes) : Outcomes := fun src o =>
  (R src none ∧ o = some src) ∨ ((∃ rest, R src (some rest)) ∧ o = none)

/-! The operators are monotone. -/

theorem seq_mono (hR : R ≤ R') (hS : S ≤ S') : seq R S ≤ seq R' S' := by
  intro src o h
  rcases h with ⟨mid, h, h'⟩ | ⟨h, h'⟩
  · exact .inl ⟨mid, hR src _ h, hS mid o h'⟩
  · exact .inr ⟨hR src _ h, h'⟩

theorem choice_mono (hR : R ≤ R') (hS : S ≤ S') : choice R S ≤ choice R' S' := by
  intro src o h
  rcases h with ⟨rest, h, h'⟩ | ⟨h, h'⟩
  · exact .inl ⟨rest, hR src _ h, h'⟩
  · exact .inr ⟨hR src _ h, hS src o h'⟩

theorem not_mono (hR : R ≤ R') : not R ≤ not R' := by
  intro src o h
  rcases h with ⟨h, h'⟩ | ⟨⟨rest, h⟩, h'⟩
  · exact .inl ⟨hR src _ h, h'⟩
  · exact .inr ⟨⟨rest, hR src _ h⟩, h'⟩

/-- Nothing is left to be done after a sequence. -/
theorem seq_empty (R : Outcomes) : seq R empty = R := by
  funext src o
  cases o with
  | none => simp [seq, empty]
  | some rest => simp [seq, empty]

/-- No choice is left after the last one. -/
theorem choice_refuse (R : Outcomes) : (choice R fun _ o => o = none) = R := by
  funext src o
  cases o with
  | none => simp [choice]
  | some rest => simp [choice]

/-! What is left is the end of the input. -/

/-- Nothing but the end of the input is ever left. -/
def Shrinks (R : Outcomes) : Prop := ∀ src rest, R src (some rest) → rest <:+ src

theorem Shrinks.char (accepts : CodePoint → Bool) : Shrinks (char accepts) := by
  intro src rest h
  cases src with
  | nil => cases h
  | cons c t =>
    change some rest = _ at h
    split at h
    · cases h
      exact List.suffix_cons c _
    · cases h

theorem Shrinks.seq (hR : R.Shrinks) (hS : S.Shrinks) : Shrinks (seq R S) := by
  intro src rest h
  rcases h with ⟨mid, h, h'⟩ | ⟨-, h⟩
  · exact (hS mid rest h').trans (hR src mid h)
  · cases h

theorem Shrinks.choice (hR : R.Shrinks) (hS : S.Shrinks) : Shrinks (choice R S) := by
  intro src rest h
  rcases h with ⟨r, h, h'⟩ | ⟨-, h⟩
  · cases h'
    exact hR src rest h
  · exact hS src rest h

theorem Shrinks.star (hR : R.Shrinks) : Shrinks (star R) := by
  intro src rest h
  generalize ho : some rest = o at h
  induction h with
  | stop =>
    cases ho
    exact List.suffix_refl _
  | next h _ ih => exact (ih ho).trans (hR _ _ h)

theorem Shrinks.not (R : Outcomes) : Shrinks (not R) := by
  intro src rest h
  rcases h with ⟨-, h⟩ | ⟨-, h⟩
  · cases h
    exact List.suffix_refl _
  · cases h

/-- A match that leaves no less than the whole input consumes nothing. -/
theorem Shrinks.eq_of_length_le (hR : R.Shrinks) (h : R src (some rest))
    (hle : src.length ≤ rest.length) : rest = src :=
  (hR src rest h).eq_of_length_le hle

theorem exists_of_star (h : star R src o) : ∃ rest, o = some rest := by
  cases h with
  | stop => exact ⟨_, rfl⟩
  | next => exact ⟨_, rfl⟩

end Outcomes

namespace Peg

variable {rules : Nat → Option Peg} {call : Nat → Outcomes} {e : Peg}

/-- The outcomes of an expression if `call` has those of the rules. -/
def outcomes (call : Nat → Outcomes) : Peg → Outcomes
  | empty => Outcomes.empty
  | char accepts => Outcomes.char accepts
  | rule i => call i
  | seq a b => Outcomes.seq (a.outcomes call) (b.outcomes call)
  | choice a b => Outcomes.choice (a.outcomes call) (b.outcomes call)
  | star a => Outcomes.star (a.outcomes call)
  | not a => Outcomes.not (a.outcomes call)

theorem outcomes_shrink (hcall : ∀ i, (call i).Shrinks) (e : Peg) : (e.outcomes call).Shrinks := by
  induction e with
  | empty =>
    intro src rest h
    cases h
    exact List.suffix_refl _
  | char accepts => exact .char accepts
  | rule i => exact hcall i
  | seq a b iha ihb => exact iha.seq ihb
  | choice a b iha ihb => exact iha.choice ihb
  | star a ih => exact ih.star
  | not a => exact .not _

/-- A property of rules that holds of a rule once it holds of the rules called by it is kept by
derivations. -/
theorem outcomes_of_derives {src : Text} {o : Option Text}
    (hcall : ∀ i e, rules i = some e → ∀ src o, e.outcomes call src o → call i src o)
    (h : Derives rules e src o) : e.outcomes call src o := by
  induction h with
  | empty => rfl
  | char_match hc => simp only [outcomes, Outcomes.char, hc, if_true]
  | char_other hc => simp only [outcomes, Outcomes.char, hc, Bool.false_eq_true, if_false]
  | char_end => rfl
  | rule he _ ih => exact hcall _ _ he _ _ ih
  | seq_next _ _ iha ihb => exact .inl ⟨_, iha, ihb⟩
  | seq_fail _ ih => exact .inr ⟨ih, rfl⟩
  | choice_first _ ih => exact .inl ⟨_, ih, rfl⟩
  | choice_second _ _ iha ihb => exact .inr ⟨iha, ihb⟩
  | star_stop _ ih => exact .stop ih
  | star_next _ _ iha ihb => exact .next iha ihb
  | not_match _ ih => exact .inl ⟨ih, rfl⟩
  | not_fail _ ih => exact .inr ⟨⟨_, ih⟩, rfl⟩

/-- The derivations from a rule, and from expressions made of rules. -/
def derived (rules : Nat → Option Peg) (i : Nat) : Outcomes := Derives rules (rule i)

theorem derives_of_outcomes {src : Text} {o : Option Text}
    (h : e.outcomes (derived rules) src o) : Derives rules e src o := by
  induction e generalizing src o with
  | empty =>
    cases h
    exact .empty
  | char accepts =>
    cases src with
    | nil =>
      cases h
      exact .char_end
    | cons c t =>
      change o = _ at h
      by_cases hc : accepts c = true
      · rw [h, if_pos hc]
        exact .char_match hc
      · rw [h, if_neg hc]
        exact .char_other (Bool.eq_false_iff.2 hc)
  | rule i => exact h
  | seq a b iha ihb =>
    rcases h with ⟨mid, ha, hb⟩ | ⟨ha, rfl⟩
    · exact .seq_next (iha ha) (ihb hb)
    · exact .seq_fail (iha ha)
  | choice a b iha ihb =>
    rcases h with ⟨rest, ha, rfl⟩ | ⟨ha, hb⟩
    · exact .choice_first (iha ha)
    · exact .choice_second (iha ha) (ihb hb)
  | star a ih =>
    -- an inner induction on the iterations
    change Outcomes.star _ src o at h
    induction h with
    | stop ha => exact .star_stop (ih ha)
    | next ha _ ihs => exact .star_next (ih ha) ihs
  | not a ih =>
    rcases h with ⟨ha, rfl⟩ | ⟨⟨rest, ha⟩, rfl⟩
    · exact .not_match (ih ha)
    · exact .not_fail (ih ha)

/-- An expression that matches leaves the end of the input. -/
theorem Derives.suffix {src rest : Text} (h : Derives rules e src (some rest)) : rest <:+ src := by
  -- for the rules, leaving the end of the input is all that is asked
  have hcall : ∀ i e, rules i = some e → ∀ src o,
      e.outcomes (fun _ src o => ∀ r ∈ o, r <:+ src) src o → ∀ r ∈ o, r <:+ src := by
    intro i e _ src o h r hr
    cases hr
    exact outcomes_shrink (fun _ _ _ h => h _ rfl) e src r h
  exact outcomes_shrink (fun _ _ _ h => h _ rfl) e src rest (outcomes_of_derives hcall h)

theorem derived_shrinks (i : Nat) : (derived rules i).Shrinks := fun _ _ h => Derives.suffix h

end Peg

end Parselet
