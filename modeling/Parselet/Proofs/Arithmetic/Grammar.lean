import Mathlib.Data.Rat.Floor
import Parselet.Token.Arithmetic
import Parselet.Proofs.Text.Span

/-!
The texts of integer arithmetic and their values. Sums are chains of products and products chains of
factors. A chain is an operand and a tail, and the tail carries the value of what stands before it,
so that operators of one rank associate to the left.
-/

namespace Parselet

/-- The exact value of an operation. Division goes to the floor, and by zero it has no value. -/
def Operator.exact : Operator → Int → Int → Option Int
  | .add, a, b => some (a + b)
  | .sub, a, b => some (a - b)
  | .mul, a, b => some (a * b)
  | .floordiv, a, b => if b = 0 then none else some ⌊(a / b : ℚ)⌋

namespace Arithmetic

/-- The two ranks of operators; products bind tighter. -/
inductive Rank where
  | product
  | sum

/-- The operators of a rank, each with the text it is written as. -/
def Rank.operators : Rank → List (Text × Operator)
  | product => [("*", .mul), ("/", .floordiv)]
  | sum => [("+", .add), ("-", .sub)]

/-- The parts of an expression. A tail is what follows in a chain whose value so far is `acc`. -/
inductive Phrase where
  | factor
  | chain (r : Rank)
  | tail (r : Rank) (acc : Option Int)

/-- What the operators of a rank stand between. -/
def Rank.operand : Rank → Phrase
  | product => .factor
  | sum => .chain .product

/-- The value of an operation whose operands may have divided by zero. -/
def combine (o : Operator) (a b : Option Int) : Option Int :=
  a.bind fun i => b.bind fun j => o.exact i j

/-- `t` is a text of the phrase, and its value is `v`, which is `none` if `t` divides by zero.
White space may follow every token. -/
inductive Denotes : Phrase → Text → Option Int → Prop
  | number {ds b : Text} : ds.IsDigits → b.IsBlank →
      Denotes .factor (ds ++ b) (some (Text.decimalValue ds))
  | group {b t b' : Text} {v : Option Int} : b.IsBlank → Denotes (.chain .sum) t v → b'.IsBlank →
      Denotes .factor ("(" ++ b ++ (t ++ (")" ++ b'))) v
  | chain {r : Rank} {t u : Text} {a v : Option Int} : Denotes r.operand t a →
      Denotes (.tail r a) u v → Denotes (.chain r) (t ++ u) v
  | stop {r : Rank} {a : Option Int} : Denotes (.tail r a) [] a
  | next {r : Rank} {s b t u : Text} {o : Operator} {a x v : Option Int} : (s, o) ∈ r.operators →
      b.IsBlank → Denotes r.operand t x → Denotes (.tail r (combine o a x)) u v →
      Denotes (.tail r a) (s ++ b ++ (t ++ u)) v

/-- `t` is an expression of value `v`, perhaps with white space before it. -/
def IsText (t : Text) (v : Option Int) : Prop :=
  ∃ b e, t = b ++ e ∧ b.IsBlank ∧ Denotes (.chain .sum) e v

end Arithmetic

/-! ## Values -/

theorem fdiv_natCast_eq_floor (a : Int) (n : Nat) : a.fdiv n = ⌊(a / n : ℚ)⌋ := by
  rw [Rat.floor_intCast_div_natCast, Int.fdiv_eq_ediv_of_nonneg a (Int.natCast_nonneg n)]

theorem fdiv_eq_floor (a b : Int) : a.fdiv b = ⌊(a / b : ℚ)⌋ := by
  -- a negative divisor is moved into the dividend
  rcases Int.eq_nat_or_neg b with ⟨n, rfl | rfl⟩
  · exact_mod_cast fdiv_natCast_eq_floor a n
  · have h := fdiv_natCast_eq_floor (-a) n
    rw [← Int.neg_fdiv_neg, neg_neg, h]
    push_cast
    rw [neg_div, div_neg]

theorem Operator.apply_eq_exact (o : Operator) (a b : Int) : o.apply a b = o.exact a b := by
  cases o with
  | floordiv => simp only [apply, exact, fdiv_eq_floor]
  | add | sub | mul => rfl

namespace Arithmetic

theorem combine_eq_some {o : Operator} {a b : Option Int} {n : Int} :
    combine o a b = some n ↔ ∃ i j, a = some i ∧ b = some j ∧ o.exact i j = some n := by
  cases a <;> cases b <;> simp [combine]

/-! ## Beginnings -/

theorem Rank.length_operator {r : Rank} {s : Text} {o : Operator} (h : (s, o) ∈ r.operators) :
    s.length = 1 := by
  have hall : ∀ r : Rank, ∀ x ∈ r.operators, x.1.length = 1 := by
    intro r
    cases r <;> decide
  exact hall r _ h

theorem Rank.operator_unique {r : Rank} {s s' t : Text} {o o' : Operator}
    (h : (s, o) ∈ r.operators) (h' : (s', o') ∈ r.operators) (hs : s <+: t) (hs' : s' <+: t) :
    s = s' ∧ o = o' := by
  have heq : s = s' := by
    rw [List.prefix_iff_eq_take.1 hs, List.prefix_iff_eq_take.1 hs', length_operator h,
      length_operator h']
  have hall : ∀ r : Rank, ∀ x ∈ r.operators, ∀ y ∈ r.operators, x.1 = y.1 → x.2 = y.2 := by
    intro r
    cases r <;> decide
  exact ⟨heq, hall r _ h _ h' heq⟩

def openParen : CodePoint := '('

theorem Denotes.head {ph : Phrase} {t : Text} {v : Option Int} (h : Denotes ph t v) :
    match ph with
    | .tail r _ => t = [] ∨ ∃ s o u, (s, o) ∈ r.operators ∧ t = s ++ u
    | _ => ∃ c u, t = c :: u ∧ (c.isDigit = true ∨ c = openParen) := by
  induction h with
  | @number ds b hds hb =>
    obtain ⟨d, ds, rfl⟩ := List.exists_cons_of_ne_nil hds.1
    exact ⟨d, ds ++ b, rfl, .inl (hds.2 d (by simp))⟩
  | group => exact ⟨openParen, _, rfl, .inr rfl⟩
  | @chain r t u a v ht hu iht ihu =>
    have hstart : ∃ c k, t = c :: k ∧ (c.isDigit = true ∨ c = openParen) := by
      cases r <;> exact iht
    obtain ⟨c, k, rfl, hc⟩ := hstart
    exact ⟨c, k ++ u, rfl, hc⟩
  | stop => exact .inl rfl
  | next hs => exact .inr ⟨_, _, _, hs, by rw [List.append_assoc]⟩

theorem Denotes.operand_head {r : Rank} {t : Text} {a : Option Int} (h : Denotes r.operand t a) :
    ∃ c u, t = c :: u ∧ (c.isDigit = true ∨ c = openParen) := by
  cases r <;> exact h.head

end Arithmetic

end Parselet
