import Parselet.Proofs.Arithmetic.Grammar
import Parselet.Proofs.Token.Lexeme

/-!
Chains of operands and operators, as the parser reads and evaluates them.
-/

namespace Parselet.Arithmetic

open Parselet.Parser Parselet.Text

variable {store : Store} {limit : Limit} {operand operators : Parser} {src rest : Text} {v : Value}
  {r : Rank}

/-- The parser of the operators of a rank. -/
def Rank.symbols (r : Rank) : Parser :=
  oneOf (r.operators.map fun x => operatorSymbol x.1 x.2)

/-- The parser of the chains of a rank. -/
def Rank.parser (expr : Parser) : Rank → Parser
  | product => term expr
  | sum => Parser.sum expr

/-- The parser of what the operators of a rank stand between. -/
def Rank.operandParser (expr : Parser) : Rank → Parser
  | product => factor expr
  | sum => term expr

theorem Rank.parser_eq_chain (expr : Parser) (r : Rank) :
    r.parser expr = Parser.chain (r.operandParser expr) r.symbols := by
  cases r <;> rfl

theorem gives_operatorSymbol {s : Text} {o : Operator} :
    (run store limit (operatorSymbol s o)).Gives src (.success v rest) ↔
      ∃ mid, src = s ++ mid ∧ v = .operator o ∧ rest = mid.trimStart := by
  rw [operatorSymbol, gives_map]
  simp only [gives_symbol, Except.ok.injEq]
  grind

theorem fails_operatorSymbol {s : Text} {o : Operator} :
    (run store limit (operatorSymbol s o)).Fails src ↔ ¬ s <+: src := by
  rw [operatorSymbol, fails_map, fails_symbol]

theorem gives_symbols :
    (run store limit r.symbols).Gives src (.success v rest) ↔
      ∃ s o mid, (s, o) ∈ r.operators ∧ src = s ++ mid ∧ v = .operator o ∧
        rest = mid.trimStart := by
  constructor
  · intro h
    obtain ⟨p, hp, hgives⟩ := exists_mem_of_gives_oneOf h
    obtain ⟨⟨s, o⟩, hs, rfl⟩ := List.mem_map.1 hp
    obtain ⟨mid, hmid⟩ := gives_operatorSymbol.1 hgives
    exact ⟨s, o, mid, hs, hmid⟩
  · rintro ⟨s, o, mid, hs, rfl, rfl, rfl⟩
    refine gives_oneOf_of_mem (List.mem_map_of_mem hs) (gives_operatorSymbol.2 ⟨mid, rfl, rfl, rfl⟩)
      fun q hq => ?_
    obtain ⟨⟨s', o'⟩, hs', rfl⟩ := List.mem_map.1 hq
    by_cases hprefix : s' <+: s ++ mid
    · obtain ⟨rfl, rfl⟩ := Rank.operator_unique hs' hs hprefix (List.prefix_append s mid)
      exact .inr (gives_operatorSymbol.2 ⟨mid, rfl, rfl, rfl⟩)
    · exact .inl (fails_operatorSymbol.2 hprefix)

theorem fails_symbols :
    (run store limit r.symbols).Fails src ↔ ∀ s o, (s, o) ∈ r.operators → ¬ s <+: src := by
  rw [Rank.symbols, fails_oneOf, List.forall_mem_map]
  simp only [fails_operatorSymbol, Prod.forall]

/-- The pairs that an iteration of a chain's tail answers. -/
theorem gives_pair {p q : Parser} :
    (run store limit (seq [p, q])).Gives src (.success v rest) ↔
      ∃ w mid w', (run store limit p).Gives src (.success w mid) ∧
        (run store limit q).Gives mid (.success w' rest) ∧ v = .tuple [w, w'] := by
  simp only [gives_seq_cons, gives_seq_nil]
  grind

theorem applyAll_cons_eq_some {o : Operator} {n m i : Int} {vs : List Value} :
    applyAll n (.tuple [.operator o, .int m] :: vs) = .ok (some i) ↔
      ∃ k, o.apply n m = some k ∧ applyAll k vs = .ok (some i) := by
  rw [applyAll]
  cases o.apply n m <;> simp

theorem applyAll_cons_of_none {o : Operator} {n m : Int} (h : o.apply n m = none)
    (vs : List Value) : applyAll n (.tuple [.operator o, .int m] :: vs) = .ok none := by
  rw [applyAll, h]

theorem applyAll_cons_of_some {o : Operator} {n m k : Int} (h : o.apply n m = some k)
    (vs : List Value) : applyAll n (.tuple [.operator o, .int m] :: vs) = applyAll k vs := by
  rw [applyAll, h]

theorem evaluate_of_applyAll {n i : Int} {vs : List Value} (hi : applyAll n vs = .ok (some i)) :
    evaluate limit (.tuple [.int n, .list vs]) = Parser.pure limit (.int i) := by
  rw [evaluate, hi]
  rfl

theorem evaluate_of_applyAll_none {n : Int} {vs : List Value} (hn : applyAll n vs = .ok none) :
    evaluate limit (.tuple [.int n, .list vs]) = .ok (fail "Division by zero") := by
  rw [evaluate, hn]
  rfl

/-- A chain goes on with the parser of its value, or with one that fails as there is none. -/
theorem evaluate_eq_ok {k : Parser} (hk : evaluate limit v = .ok k) :
    ∃ n vs, v = .tuple [.int n, .list vs] ∧
      ((∃ i, applyAll n vs = .ok (some i) ∧ Parser.pure limit (.int i) = .ok k) ∨
        applyAll n vs = .ok none ∧ k = fail "Division by zero") := by
  unfold evaluate at hk
  split at hk
  · next n vs =>
    refine ⟨n, vs, rfl, ?_⟩
    cases hvalue : applyAll n vs with
    | error fault =>
      rw [hvalue] at hk
      cases hk
    | ok value =>
      rw [hvalue] at hk
      cases value with
      | some i => exact .inl ⟨i, rfl, hk⟩
      | none =>
        cases hk
        exact .inr ⟨rfl, rfl⟩
  · cases hk

/-- What a chain reads has a value, which is that of its operands and operators from the left. -/
theorem applyAll_of_gives_chain
    (h : (run store limit (chain operand operators)).Gives src (.success v rest)) :
    ∃ w mid vs, (run store limit operand).Gives src (.success w mid) ∧
      (run store limit (seq [operators, operand])).Repeats mid vs rest ∧
        ∃ n i, w = .int n ∧ v = .int i ∧ applyAll n vs = .ok (some i) := by
  obtain ⟨w, mid, k, hseq, hk, hgives⟩ := gives_flatMap.1 h
  obtain ⟨w, mid', w', hfirst, hmany, rfl⟩ := gives_pair.1 hseq
  obtain ⟨vs, rfl, hvs⟩ := gives_many.1 hmany
  refine ⟨w, mid', vs, hfirst, ?_⟩
  -- a failing evaluation would be a parser that fails, which gives no success
  obtain ⟨n, vs', hpair, ⟨i, hi, hpure⟩ | ⟨-, rfl⟩⟩ := evaluate_eq_ok hk
  · cases hpair
    cases (gives_of_pure hpure).1 hgives
    exact ⟨hvs, n, i, rfl, rfl, hi⟩
  · cases gives_fail.1 hgives

theorem gives_chain_of_applyAll {mid : Text} {n i : Int} {vs : List Value}
    (hfirst : (run store none operand).Gives src (.success (.int n) mid))
    (hvs : (run store none (seq [operators, operand])).Repeats mid vs rest)
    (hi : applyAll n vs = .ok (some i)) :
    (run store none (chain operand operators)).Gives src (.success (.int i) rest) := by
  have hseq : (run store none (seq [operand, many (seq [operators, operand])])).Gives src
      (.success (.tuple [.int n, .list vs]) rest) :=
    gives_pair.2 ⟨_, mid, _, hfirst, gives_many.2 ⟨vs, rfl, hvs⟩, rfl⟩
  have hpure : Parser.pure none (.int i) = .ok (mk _ (.pure (.int i))) := rfl
  exact gives_flatMap.2 ⟨_, rest, _, hseq, (evaluate_of_applyAll hi).trans hpure,
    (gives_of_pure hpure).2 rfl⟩

end Parselet.Arithmetic
