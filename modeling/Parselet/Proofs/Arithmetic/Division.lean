import Parselet.Proofs.Arithmetic.Longest

/-!
Division by zero. A chain that divides by zero fails, but behind an operator such a failure only
ends the repetition of the chain around it, as any other mismatch does. So a division by zero is
reported where it comes first; where an operand behind an operator is the first to have no value,
the parser stops early, in front of an operator.
-/

namespace Parselet.Arithmetic

open Parselet.Parser Parselet.Text

variable {store : Store} {f : Forward} {operand expr : Parser} {src rest : Text} {r : Rank}

/-! ## Texts that divide by zero -/

/-- `t` is a text of the phrase that divides by zero. Read from the left, the first thing without a
value in a chain is an operation, which is leading, an operand behind an operator, which is not, or
the first operand, where it depends on what comes first in there. -/
inductive ByZero : Bool → Phrase → Text → Prop
  | group {leading : Bool} {b t b' : Text} : b.IsBlank → ByZero leading (.chain .sum) t →
      b'.IsBlank → ByZero leading .factor ("(" ++ b ++ (t ++ (")" ++ b')))
  | first {leading : Bool} {r : Rank} {t u : Text} : ByZero leading r.operand t →
      Denotes (.tail r none) u none → ByZero leading (.chain r) (t ++ u)
  | rest {leading : Bool} {r : Rank} {t u : Text} {a : Int} : Denotes r.operand t (some a) →
      ByZero leading (.tail r (some a)) u → ByZero leading (.chain r) (t ++ u)
  | here {r : Rank} {s b t u : Text} {o : Operator} {a x : Int} : (s, o) ∈ r.operators →
      b.IsBlank → Denotes r.operand t (some x) → o.exact a x = none →
      Denotes (.tail r none) u none → ByZero true (.tail r (some a)) (s ++ b ++ (t ++ u))
  | later {leading : Bool} {r : Rank} {s b t u : Text} {o : Operator} {a x y : Int} :
      (s, o) ∈ r.operators → b.IsBlank → Denotes r.operand t (some x) → o.exact a x = some y →
      ByZero leading (.tail r (some y)) u → ByZero leading (.tail r (some a)) (s ++ b ++ (t ++ u))
  | operand {leading : Bool} {r : Rank} {s b t u : Text} {o : Operator} {a : Int} :
      (s, o) ∈ r.operators → b.IsBlank → ByZero leading r.operand t →
      Denotes (.tail r none) u none → ByZero false (.tail r (some a)) (s ++ b ++ (t ++ u))

theorem ByZero.denotes {leading : Bool} {ph : Phrase} {t : Text} (h : ByZero leading ph t) :
    Denotes ph t none := by
  induction h with
  | group hb _ hb' ih => exact .group hb ih hb'
  | first _ hu ih => exact .chain ih hu
  | rest ht _ ih => exact .chain ht ih
  | @here r s b t u o a x hs hb ht ho hu =>
    have hcombine : combine o (some a) (some x) = none := ho
    exact .next hs hb ht (hcombine ▸ hu)
  | @later _ r s b t u o a x y hs hb ht ho _ ih =>
    have hcombine : combine o (some a) (some x) = some y := ho
    exact .next hs hb ht (hcombine ▸ ih)
  | operand hs hb _ hu ih => exact .next hs hb ih hu

/-- A tail may also have no value because the operands before it have none. -/
theorem byZero_of_denotes {ph : Phrase} {t : Text} {v : Option Int} (h : Denotes ph t v)
    (hv : v = none) (hph : ∀ r, ph ≠ .tail r none) : ∃ leading, ByZero leading ph t := by
  have hoperand (r q : Rank) : r.operand ≠ .tail q none := by cases r <;> nofun
  induction h with
  | number => cases hv
  | group hb _ hb' ih =>
    obtain ⟨leading, h⟩ := ih hv nofun
    exact ⟨leading, .group hb h hb'⟩
  | @chain r t u a v ht hu iht ihu =>
    subst hv
    cases a with
    | none =>
      obtain ⟨leading, h⟩ := iht rfl (hoperand r)
      exact ⟨leading, .first h hu⟩
    | some a =>
      obtain ⟨leading, h⟩ := ihu rfl nofun
      exact ⟨leading, .rest ht h⟩
  | @stop r a =>
    subst hv
    exact absurd rfl (hph r)
  | @next r s b t u o a x v hs hb ht hu iht ihu =>
    subst hv
    cases a with
    | none => exact absurd rfl (hph r)
    | some a =>
      cases x with
      | none =>
        obtain ⟨leading, h⟩ := iht rfl (hoperand r)
        exact ⟨false, .operand hs hb h hu⟩
      | some x =>
        cases ho : o.exact a x with
        | none =>
          have hcombine : combine o (some a) (some x) = none := ho
          exact ⟨true, .here hs hb ht ho (hcombine ▸ hu)⟩
        | some y =>
          have hcombine : combine o (some a) (some x) = some y := ho
          rw [hcombine] at hu ihu
          obtain ⟨leading, h⟩ := ihu rfl nofun
          exact ⟨leading, .later hs hb ht ho h⟩

/-- `t` divides by zero before any operand behind an operator has no value. -/
def LeadsByZero (t : Text) : Prop := ∃ b e, t = b ++ e ∧ b.IsBlank ∧ ByZero true (.chain .sum) e

/-- `u` ends inside parentheses: behind one that opens stands the text of an expression. -/
def InParentheses (u : Text) : Prop := ∃ w e n, u = w ++ ("(" ++ e) ∧ IsText e (some n)

theorem InParentheses.append {u : Text} (h : InParentheses u) (w : Text) :
    InParentheses (w ++ u) := by
  obtain ⟨w', e, n, rfl, he⟩ := h
  exact ⟨w ++ w', e, n, by rw [List.append_assoc], he⟩

/-! ## Failures -/

theorem gives_chain_failure_of_operand {operators : Parser} {m : Text} {s : Option Text}
    (h : (run store none operand).Gives src (.failure m s)) :
    (run store none (chain operand operators)).Gives src (.failure m s) :=
  gives_flatMap_failure.2 (.inl (gives_seq_cons_failure.2 (.inl h)))

theorem gives_chain_failure_of_applyAll {operators : Parser} {mid : Text} {n : Int}
    {vs : List Value} (hfirst : (run store none operand).Gives src (.success (.int n) mid))
    (hvs : (run store none (seq [operators, operand])).Repeats mid vs rest)
    (hnone : applyAll n vs = .ok none) :
    (run store none (chain operand operators)).Gives src
      (.failure "Division by zero" (some rest)) := by
  have hseq : (run store none (seq [operand, many (seq [operators, operand])])).Gives src
      (.success (.tuple [.int n, .list vs]) rest) :=
    gives_pair.2 ⟨_, mid, _, hfirst, gives_many.2 ⟨vs, rfl, hvs⟩, rfl⟩
  exact gives_flatMap_failure.2 (.inr ⟨_, rest, _, hseq, evaluate_of_applyAll_none hnone,
    gives_fail.2 rfl⟩)

/-- The message about a parenthesis that is not closed in front of the character. -/
def unclosedMessage (c : CodePoint) : Text :=
  "Expected " ++ Step.inDoubleQuotes ")" ++ " but found " ++ Step.inDoubleQuotes [c]

theorem unclosedMessage_ne (c : CodePoint) : unclosedMessage c ≠ "Division by zero" := by
  intro h
  have hhead : (unclosedMessage c).head? = some ('E' : CodePoint) := rfl
  rw [h] at hhead
  exact absurd hhead (by decide)

theorem gives_closing_failure {c : CodePoint} (hc : c ≠ (')' : CodePoint)) :
    (run store none (symbol ")")).Gives (c :: rest)
      (.failure (unclosedMessage c) (some (c :: rest))) := by
  refine gives_followedBy_failure.2 (.inl (run_gives.2 ?_))
  have hclose : Text.ofString ")" = [(')' : CodePoint)] := rfl
  have hnot : (Text.ofString ")").isPrefixOf (c :: rest) = false := by
    simpa [hclose, List.isPrefixOf] using fun h => hc h.symm
  have hlength : ¬ (c :: rest).length < (Text.ofString ")").length := by simp [hclose]
  have hdots : ¬ Text.excerptLimit < (Text.ofString ")").length := by decide
  have htake : (c :: rest).take (min (Text.ofString ")").length Text.excerptLimit) = [c] := rfl
  show Step.Gives (Step.string ")") (c :: rest) _
  simp only [Step.Gives, Step.string, hnot, Bool.false_eq_true, if_false, Step.literalFailure,
    hlength, hdots, htake, List.append_nil]
  rfl

/-! ## What the parser makes of a division by zero -/

/-- The signs in front of which a chain of the rank may break off. -/
def Rank.signs : Rank → Text
  | product => "*/"
  | sum => "+-*/"

theorem Rank.signs_subset_sum (r : Rank) : r.signs ⊆ Rank.sum.signs := by
  cases r <;> decide

theorem Rank.sign_of_operator {s : Text} {o : Operator} (h : (s, o) ∈ r.operators) :
    ∃ c ∈ r.signs, s = [c] := by
  have hall : ∀ r : Rank, r.operators.all (fun x => r.signs.any fun c => x.1 = [c]) = true := by
    intro r
    cases r <;> decide
  simpa using List.all_eq_true.1 (hall r) _ h

theorem ne_closing_of_sign {c : CodePoint} (hc : c ∈ Rank.sum.signs) : c ≠ (')' : CodePoint) := by
  rintro rfl
  exact absurd hc (by decide)

/-- Sums do not go on in front of the signs where a product may break off. -/
theorem fails_pair_of_product_sign {c : CodePoint} (hc : c ∈ Rank.product.signs) :
    (run store none (seq [Rank.sum.symbols, operand])).Fails (c :: rest) := by
  have hall : Rank.product.signs.all (fun c =>
      Rank.sum.operators.all fun x => x.1 ≠ [c]) = true := by
    decide
  rw [fails_seq_cons]
  refine .inl (fails_symbols.2 fun s o hs hprefix => ?_)
  have hne : s ≠ [c] := by
    simpa using List.all_eq_true.1 (List.all_eq_true.1 hall c hc) _ hs
  refine hne ?_
  rw [List.prefix_iff_eq_take.1 hprefix, Rank.length_operator hs]
  rfl

/-- Sums and differences have a value. -/
theorem exists_apply_of_sum {s : Text} {o : Operator} (h : (s, o) ∈ Rank.sum.operators)
    (a b : Int) : ∃ n, o.apply a b = some n := by
  simp only [Rank.operators, List.mem_cons, Prod.mk.injEq, List.not_mem_nil, or_false] at h
  rcases h with ⟨-, rfl⟩ | ⟨-, rfl⟩
  · exact ⟨a + b, rfl⟩
  · exact ⟨a - b, rfl⟩

/-- The step fails for a division by zero. -/
def ReportsZero (p : Step) (src : Text) : Prop :=
  ∃ s, p.Gives src (.failure "Division by zero" s)

/-- The step fails in parentheses, as they are not closed in front of an operator, with `k` or more
behind it. -/
def LeavesOpen (p : Step) (src k : Text) : Prop :=
  ∃ u c rest, src = u ++ c :: rest ∧ InParentheses u ∧ c ∈ Rank.sum.signs ∧
    k.length ≤ rest.length ∧ p.Gives src (.failure (unclosedMessage c) (some (c :: rest)))

/-- The step breaks off with an integer in front of one of the signs, with `k` or more behind it. -/
def BreaksOff (signs : Text) (p : Step) (src k : Text) : Prop :=
  ∃ c rest n, c ∈ signs ∧ k.length ≤ rest.length ∧ p.Gives src (.success (.int n) (c :: rest))

/-- What the parser of a phrase makes of a text that divides by zero, with `k` behind it. -/
def Stumbles (store : Store) (expr : Parser) : Bool → Phrase → Text → Text → Prop
  | true, .factor, src, _ => ReportsZero (run store none (factor expr)) src
  | false, .factor, src, k => LeavesOpen (run store none (factor expr)) src k
  | true, .chain r, src, _ => ReportsZero (run store none (r.parser expr)) src
  | false, .chain r, src, k =>
    LeavesOpen (run store none (r.parser expr)) src k ∨
      BreaksOff r.signs (run store none (r.parser expr)) src k
  | true, .tail r acc, src, _ => ∃ a vs rest, acc = some a ∧
      (run store none (seq [r.symbols, r.operandParser expr])).Repeats src vs rest ∧
        applyAll a vs = .ok none
  | false, .tail r acc, src, k => ∃ a vs c rest n, acc = some a ∧ c ∈ r.signs ∧
      k.length ≤ rest.length ∧
        (run store none (seq [r.symbols, r.operandParser expr])).Repeats src vs (c :: rest) ∧
          applyAll a vs = .ok (some n)

theorem Stumbles.reports_operand {k : Text} (h : Stumbles store expr true r.operand src k) :
    ReportsZero (run store none (r.operandParser expr)) src := by
  cases r <;> exact h

/-- Only the operands of sums can break off. -/
theorem Stumbles.operand_cases {k : Text} (h : Stumbles store expr false r.operand src k) :
    LeavesOpen (run store none (r.operandParser expr)) src k ∨
      r = .sum ∧ BreaksOff Rank.product.signs (run store none (r.operandParser expr)) src k := by
  cases r with
  | product => exact .inl h
  | sum => exact h.imp_right fun hbreaks => ⟨rfl, hbreaks⟩

theorem LeavesOpen.of_operand {operators : Parser} {k k' : Text}
    (h : LeavesOpen (run store none operand) src k) (hle : k'.length ≤ k.length) :
    LeavesOpen (run store none (chain operand operators)) src k' := by
  obtain ⟨u, c, rest, hsrc, hu, hc, hlength, hgives⟩ := h
  exact ⟨u, c, rest, hsrc, hu, hc, hle.trans hlength, gives_chain_failure_of_operand hgives⟩

/-- In parentheses, breaking off means that the closing one is missing. -/
theorem stumbles_group (hf : store.target? f = some (Parser.sum (forward f))) {leading : Bool}
    {b t m k : Text} (hb : b.IsBlank) (ht : Denotes (.chain .sum) t none)
    (hle : k.length ≤ m.length)
    (h : Stumbles store (forward f) leading (.chain .sum) (t ++ m) m) :
    Stumbles store (forward f) leading .factor ("(" ++ (b ++ (t ++ m))) k := by
  have hopen : (run store none (symbol "(")).Gives ("(" ++ (b ++ (t ++ m)))
      (.success (.text "(") (t ++ m)) :=
    gives_opening hb (avoids_isSpace_of_head ht.head _)
  have hfactor {message : Text} {s : Option Text}
      (h : (run store none (forward f)).Gives (t ++ m) (.failure message s) ∨
        ∃ v after, (run store none (forward f)).Gives (t ++ m) (.success v after) ∧
          (run store none (symbol ")")).Gives after (.failure message s)) :
      (run store none (factor (forward f))).Gives ("(" ++ (b ++ (t ++ m)))
        (.failure message s) :=
    gives_orElse_failure.2 ⟨fails_number_of_opening _, gives_between_failure.2 (.inr
      ⟨_, _, hopen, h⟩)⟩
  cases leading with
  | true =>
    obtain ⟨s, hs⟩ := h
    exact ⟨s, hfactor (.inl ((gives_forward hf).2 hs))⟩
  | false =>
    -- the inner expression leaves a parenthesis open itself, or what it breaks off with is text
    rcases h with ⟨u, c, rest, hsrc, hu, hc, hlength, hgives⟩ | ⟨c, rest, n, hc, hlength, hgives⟩
    · refine ⟨"(" ++ (b ++ u), c, rest, ?_, (hu.append b).append _, hc, hle.trans hlength,
        hfactor (.inl ((gives_forward hf).2 hgives))⟩
      rw [hsrc]
      simp only [List.append_assoc]
    · have hexpr := (gives_forward hf).2 hgives
      obtain ⟨e, i, hi, hsrc, hdenotes⟩ := sound_expr hf (t ++ m).length le_rfl hexpr
      refine ⟨"(" ++ (b ++ e), c, rest, ?_, ⟨[], b ++ e, i, rfl, b, e, rfl, hb, hdenotes⟩, hc,
        hle.trans hlength,
        hfactor (.inr ⟨_, _, hexpr, gives_closing_failure (ne_closing_of_sign hc)⟩)⟩
      rw [hsrc]
      simp only [List.append_assoc]

/-- What the first operand stumbles over, the chain does. -/
theorem stumbles_first {leading : Bool} {k k' : Text} (hle : k'.length ≤ k.length)
    (h : Stumbles store expr leading r.operand src k) :
    Stumbles store expr leading (.chain r) src k' := by
  cases leading with
  | true =>
    obtain ⟨s, hs⟩ := h.reports_operand
    refine ⟨s, ?_⟩
    rw [Rank.parser_eq_chain]
    exact gives_chain_failure_of_operand hs
  | false =>
    show LeavesOpen (run store none (r.parser expr)) src k' ∨
      BreaksOff r.signs (run store none (r.parser expr)) src k'
    rw [Rank.parser_eq_chain]
    rcases h.operand_cases with hopen | ⟨rfl, c, rest, n, hc, hlength, hgives⟩
    · exact .inl (hopen.of_operand hle)
    -- a product that breaks off is the last operand of the sum
    · have hstop : (run store none (seq [Rank.sum.symbols, Rank.sum.operandParser expr])).Repeats
          (c :: rest) [] (c :: rest) := .fails (fails_pair_of_product_sign hc)
      exact .inr ⟨c, rest, n, Rank.signs_subset_sum _ hc, hle.trans hlength,
        gives_chain_of_applyAll hgives hstop rfl⟩

/-- What the tail stumbles over behind a first operand with a value, the chain does. -/
theorem stumbles_rest {leading : Bool} {mid k : Text} {a : Int}
    (hfirst : (run store none (r.operandParser expr)).Gives src (.success (.int a) mid))
    (h : Stumbles store expr leading (.tail r (some a)) mid k) :
    Stumbles store expr leading (.chain r) src k := by
  cases leading with
  | true =>
    obtain ⟨a', vs, rest, ha, hvs, hnone⟩ := h
    cases ha
    refine ⟨some rest, ?_⟩
    rw [Rank.parser_eq_chain]
    exact gives_chain_failure_of_applyAll hfirst hvs hnone
  | false =>
    obtain ⟨a', vs, c, rest, n, ha, hc, hlength, hvs, hn⟩ := h
    cases ha
    refine .inr ⟨c, rest, n, hc, hlength, ?_⟩
    rw [Rank.parser_eq_chain]
    exact gives_chain_of_applyAll hfirst hvs hn

/-- An operand behind an operator that stumbles ends the repetition: in front of the operator if the
operand fails, and where it breaks off if it succeeds. -/
theorem stumbles_operand (hf : store.target? f = some (Parser.sum (forward f))) {leading : Bool}
    {s b m mid k : Text} {o : Operator} {a : Int} (hs : (s, o) ∈ r.operators) (hb : b.IsBlank)
    (hm : Avoids CodePoint.isSpace m) (hmid : mid.length ≤ m.length) (hle : k.length ≤ mid.length)
    (h : Stumbles store (forward f) leading r.operand m mid) :
    Stumbles store (forward f) false (.tail r (some a)) (s ++ (b ++ m)) k := by
  have hfailing (hfails : (run store none (r.operandParser (forward f))).Fails m) :
      Stumbles store (forward f) false (.tail r (some a)) (s ++ (b ++ m)) k := by
    obtain ⟨c, hc, rfl⟩ := Rank.sign_of_operator hs
    refine ⟨a, [], c, b ++ m, a, rfl, hc, ?_, .fails ?_, rfl⟩
    · rw [List.length_append]
      omega
    · rw [fails_seq_cons]
      refine .inr ⟨_, _, gives_operator hs hb hm, ?_⟩
      rw [fails_seq_cons]
      exact .inl hfails
  cases leading with
  | true =>
    obtain ⟨s, hs⟩ := h.reports_operand
    exact hfailing ⟨_, s, hs⟩
  | false =>
    rcases h.operand_cases with ⟨_, c, rest, -, -, -, -, hgives⟩ |
      ⟨rfl, c, rest, n, hc, hlength, hgives⟩
    · exact hfailing ⟨_, _, hgives⟩
    · obtain ⟨y, hy⟩ := exists_apply_of_sum hs a n
      have hsuffix := suffix_of_sound (sound_operandParser hf .sum m.length) le_rfl hgives
      refine ⟨a, [.tuple [.operator o, .int n]], c, rest, y, rfl, Rank.signs_subset_sum _ hc,
        hle.trans hlength, ?_, ?_⟩
      · exact repeats_next hs hb hm hgives hsuffix.length_le
          (.fails (fails_pair_of_product_sign hc))
      · exact applyAll_cons_of_some hy []

theorem stumbles_here (hf : store.target? f = some (Parser.sum (forward f))) {s b m mid k : Text}
    {o : Operator} {a x : Int} (hs : (s, o) ∈ r.operators) (hb : b.IsBlank)
    (hm : Avoids CodePoint.isSpace m) (ho : o.exact a x = none)
    (hoperand : (run store none (r.operandParser (forward f))).Gives m (.success (.int x) mid))
    (hle : mid.length ≤ m.length) :
    Stumbles store (forward f) true (.tail r (some a)) (s ++ (b ++ m)) k := by
  obtain ⟨vs, rest, hvs⟩ := exists_repeats hf r mid
  refine ⟨a, _, rest, rfl, repeats_next hs hb hm hoperand hle hvs, ?_⟩
  exact applyAll_cons_of_none ((o.apply_eq_exact a x).trans ho) vs

theorem stumbles_later {leading : Bool} {s b m mid k : Text} {o : Operator} {a x y : Int}
    (hs : (s, o) ∈ r.operators) (hb : b.IsBlank) (hm : Avoids CodePoint.isSpace m)
    (ho : o.exact a x = some y)
    (hoperand : (run store none (r.operandParser expr)).Gives m (.success (.int x) mid))
    (hle : mid.length ≤ m.length)
    (h : Stumbles store expr leading (.tail r (some y)) mid k) :
    Stumbles store expr leading (.tail r (some a)) (s ++ (b ++ m)) k := by
  have hstep := applyAll_cons_of_some ((o.apply_eq_exact a x).trans ho)
  cases leading with
  | true =>
    obtain ⟨y', vs, rest, hy, hvs, hnone⟩ := h
    cases hy
    exact ⟨a, _, rest, rfl, repeats_next hs hb hm hoperand hle hvs, (hstep vs).trans hnone⟩
  | false =>
    obtain ⟨y', vs, c, rest, n, hy, hc, hlength, hvs, hn⟩ := h
    cases hy
    exact ⟨a, _, c, rest, n, rfl, hc, hlength, repeats_next hs hb hm hoperand hle hvs,
      (hstep vs).trans hn⟩

/-- By induction on where the text divides by zero. -/
theorem stumbles_of_byZero (hf : store.target? f = some (Parser.sum (forward f))) {leading : Bool}
    {ph : Phrase} {t k : Text} (h : ByZero leading ph t)
    (hk : Stops store (forward f) ph t k) : Stumbles store (forward f) leading ph (t ++ k) k := by
  induction h generalizing k with
  | @group leading b t b' hb ht hb' ih =>
    have hinner : Follows (.chain .sum) (")" ++ (b' ++ k)) := by
      intro c hc
      cases hc
      decide
    simp only [List.append_assoc]
    refine stumbles_group hf hb ht.denotes ?_ (ih (hinner.stops t))
    simp only [List.length_append]
    omega
  | @first leading r t u ht hu ih =>
    rw [← List.nil_append (t ++ u)] at hk
    rw [List.append_assoc]
    exact stumbles_first (List.suffix_append u k).length_le (ih (hk.before_tail rfl hu))
  | @rest leading r t u a ht hu ih =>
    rw [← List.nil_append (t ++ u)] at hk
    rw [List.append_assoc]
    exact stumbles_rest (reads_of_stops hf ht rfl (hk.before_tail rfl hu.denotes)).gives_operand
      (ih (hk.of_tail rfl))
  | @here r s b t u o a x hs hb ht ho hu =>
    have hoperand := (reads_of_stops hf ht rfl (hk.before_tail rfl hu)).gives_operand
    simp only [List.append_assoc]
    exact stumbles_here hf hs hb (ht.operand_avoids_isSpace _) ho hoperand
      (List.suffix_append t _).length_le
  | @later leading r s b t u o a x y hs hb ht ho hu ih =>
    have hoperand := (reads_of_stops hf ht rfl (hk.before_tail rfl hu.denotes)).gives_operand
    simp only [List.append_assoc]
    exact stumbles_later hs hb (ht.operand_avoids_isSpace _) ho hoperand
      (List.suffix_append t _).length_le (ih (hk.of_tail rfl))
  | @operand leading r s b t u o a hs hb ht hu ih =>
    simp only [List.append_assoc]
    exact stumbles_operand hf hs hb (ht.denotes.operand_avoids_isSpace _)
      (List.suffix_append t _).length_le (List.suffix_append u k).length_le
      (ih (hk.before_tail rfl hu))

/-! ## The parser that is built -/

/-- What the parser of expressions makes of a longest text that divides by zero. -/
theorem LongestText.stumbles (hf : store.target? f = some (Parser.sum (forward f)))
    {leading : Bool} {b e k : Text} (h : LongestText (b ++ (e ++ k)) (b ++ e) none)
    (hb : b.IsBlank) (he : ByZero leading (.chain .sum) e) :
    Stumbles store (forward f) leading (.chain .sum) (e ++ k) k :=
  stumbles_of_byZero hf he (h.stops hf hb he.denotes)

/-- In front of which operator the parser stops if the division by zero is not leading. -/
theorem exists_sign_of_stumbles (hf : store.target? f = some (Parser.sum (forward f)))
    {b e k : Text} (hb : b.IsBlank)
    (h : Stumbles store (forward f) false (.chain .sum) (e ++ k) k) :
    ∃ u c rest, b ++ (e ++ k) = u ++ c :: rest ∧ u.length < (b ++ e).length ∧
      c ∈ Rank.sum.signs ∧
        (InParentheses u ∧ (run store none (Parser.sum (forward f))).Gives (e ++ k)
            (.failure (unclosedMessage c) (some (c :: rest))) ∨
          ∃ n, IsText u (some n) ∧ (run store none (Parser.sum (forward f))).Gives (e ++ k)
            (.success (.int n) (c :: rest))) := by
  have hshorter {u rest : Text} {c : CodePoint} (hu : e ++ k = u ++ c :: rest)
      (hlength : k.length ≤ rest.length) : (b ++ u).length < (b ++ e).length := by
    have := congrArg List.length hu
    simp only [List.length_append, List.length_cons] at this ⊢
    omega
  rcases h with ⟨u, c, rest, hu, hopen, hc, hlength, hgives⟩ | ⟨c, rest, n, hc, hlength, hgives⟩
  · exact ⟨b ++ u, c, rest, by rw [hu, List.append_assoc], hshorter hu hlength, hc,
      .inl ⟨hopen.append b, hgives⟩⟩
  · obtain ⟨u, i, hi, hu, hdenotes⟩ := sound_expr hf _ le_rfl ((gives_forward hf).2 hgives)
    cases hi
    exact ⟨b ++ u, c, rest, by rw [hu, List.append_assoc], hshorter hu hlength, hc,
      .inr ⟨n, ⟨b, u, rfl, hb, hdenotes⟩, hgives⟩⟩

theorem LongestText.reports (hf : store.target? f = some (Parser.sum (forward f))) {t : Text}
    (h : LongestText src t none) (hleads : LeadsByZero t) :
    ∃ s, (reader f).EndsIn store none src (.value (.failure "Division by zero" s)) := by
  obtain ⟨k, rfl⟩ := h.isPrefix
  obtain ⟨b, e, rfl, hb, he⟩ := hleads
  rw [List.append_assoc] at h ⊢
  obtain ⟨s, hs⟩ := h.stumbles hf hb he
  exact ⟨s, (endsIn_arithmetic hf hb (avoids_isSpace_of_head he.denotes.head k)).2 hs⟩

theorem LongestText.stops_early (hf : store.target? f = some (Parser.sum (forward f))) {t : Text}
    (h : LongestText src t none) (hleads : ¬ LeadsByZero t) :
    ∃ u c rest, src = u ++ c :: rest ∧ u.length < t.length ∧ c ∈ Rank.sum.signs ∧
      (InParentheses u ∧ (reader f).EndsIn store none src
          (.value (.failure (unclosedMessage c) (some (c :: rest)))) ∨
        ∃ n, IsText u (some n) ∧
          (reader f).EndsIn store none src (.value (.success (.int n) (c :: rest)))) := by
  obtain ⟨k, rfl⟩ := h.isPrefix
  obtain ⟨b, e, rfl, hb, hdenotes⟩ := h.isText
  obtain ⟨leading, he⟩ := byZero_of_denotes hdenotes rfl nofun
  cases leading with
  | true => exact absurd ⟨b, e, rfl, hb, he⟩ hleads
  | false =>
    rw [List.append_assoc] at h ⊢
    simp only [endsIn_arithmetic hf hb (avoids_isSpace_of_head hdenotes.head k)]
    exact exists_sign_of_stumbles hf hb (h.stumbles hf hb he)

/-- Where the longest text divides by zero, the parser never succeeds with all of it. It reports the
division by zero exactly if that is leading. Otherwise an operand behind an operator has no value,
and in front of an operator of the text the parser either succeeds, with a shorter text and its
value, or it fails inside parentheses, which are not closed there. -/
theorem arithmetic_reports_leading_zero (store₀ : Store) :
    ∃ p store, arithmetic.run store₀ = .ok (p, store) ∧ ∀ src t, LongestText src t none →
      ((∃ s, p.EndsIn store none src (.value (.failure "Division by zero" s))) ↔ LeadsByZero t) ∧
        (¬ LeadsByZero t → ∃ u c rest, src = u ++ c :: rest ∧ u.length < t.length ∧
          c ∈ Rank.sum.signs ∧
            (InParentheses u ∧
                p.EndsIn store none src (.value (.failure (unclosedMessage c) (some (c :: rest)))) ∨
              ∃ n, IsText u (some n) ∧
                p.EndsIn store none src (.value (.success (.int n) (c :: rest))))) := by
  obtain ⟨f, store, hbuild, hf⟩ := arithmetic_builds store₀
  refine ⟨reader f, store, hbuild, fun src t ht => ⟨⟨?_, ht.reports hf⟩, ht.stops_early hf⟩⟩
  rintro ⟨s, hs⟩
  by_contra hleads
  -- the run has only one end, which is another one if the division by zero is not leading
  obtain ⟨u, c, rest, -, -, -, ⟨-, hfailure⟩ | ⟨n, -, hsuccess⟩⟩ := ht.stops_early hf hleads
  · have heq := (endsIn_iff.1 hs).symm.trans (endsIn_iff.1 hfailure)
    simp only [Ending.value.injEq, Result.failure.injEq] at heq
    exact unclosedMessage_ne c heq.1.symm
  · cases (endsIn_iff.1 hs).symm.trans (endsIn_iff.1 hsuccess)

/-! ## One by zero -/

theorem denotes_digit {c : CodePoint} (hc : c.isDigit = true) :
    Denotes .factor [c] (some (decimalValue [c])) := by
  have hdigits : IsDigits [c] := ⟨by simp, by simpa using hc⟩
  simpa using Denotes.number hdigits (b := []) (by simp [IsBlank])

theorem byZero_quotient : ByZero true (.chain .product) "1/0" := by
  have hone : Denotes .factor "1" (some (decimalValue "1")) := denotes_digit (by decide)
  have hzero : Denotes .factor "0" (some (decimalValue "0")) := denotes_digit (by decide)
  have hvalue : decimalValue "0" = 0 := by decide
  have hnone : Operator.floordiv.exact (decimalValue "1") (decimalValue "0") = none := by
    rw [hvalue]
    rfl
  have hslash : (Text.ofString "/", Operator.floordiv) ∈ Rank.product.operators := by
    simp [Rank.operators]
  have htail : ByZero true (.tail .product (some (decimalValue "1"))) "/0" :=
    .here (b := []) (t := "0") (u := []) hslash (by simp [IsBlank]) hzero hnone .stop
  exact .rest (t := "1") hone htail

/-- A summand that divides by zero, behind an operator. -/
theorem byZero_summand : ByZero false (.chain .sum) "1+1/0" := by
  have hone : Denotes (.chain .product) "1" (some (decimalValue "1")) :=
    .chain (t := "1") (u := []) (denotes_digit (by decide)) .stop
  have hplus : (Text.ofString "+", Operator.add) ∈ Rank.sum.operators := by
    simp [Rank.operators]
  have htail : ByZero false (.tail .sum (some (decimalValue "1"))) "+1/0" :=
    .operand (b := []) (t := "1/0") (u := []) hplus (by simp [IsBlank]) byZero_quotient .stop
  exact .rest (t := "1") hone htail

/-- The same sum in parentheses. -/
theorem byZero_group : ByZero false (.chain .sum) "(1+1/0)" := by
  have hblank : IsBlank [] := by simp [IsBlank]
  have hgroup := ByZero.group hblank byZero_summand hblank
  have hproduct : ByZero false (.chain .product) "(1+1/0)" :=
    .first (t := "(1+1/0)") (u := []) hgroup .stop
  exact .first (t := "(1+1/0)") (u := []) hproduct .stop

theorem ByZero.longestText {leading : Bool} {t : Text} (h : ByZero leading (.chain .sum) t) :
    LongestText t t none :=
  IsText.longestText ⟨[], t, rfl, by simp [IsBlank], h.denotes⟩

/-- A quotient by zero is reported where it comes first. Behind an operator in parentheses it is
not: they are found open in front of the operator. -/
theorem arithmetic_reports_quotient_by_zero :
    ∃ p store, arithmetic.run Store.empty = .ok (p, store) ∧
      (∃ s, p.EndsIn store none "1/0" (.value (.failure "Division by zero" s))) ∧
        ¬ LeadsByZero "(1+1/0)" ∧
          ∃ u c rest, Text.ofString "(1+1/0)" = u ++ c :: rest ∧ InParentheses u ∧
            p.EndsIn store none "(1+1/0)"
              (.value (.failure (unclosedMessage c) (some (c :: rest)))) := by
  obtain ⟨p, store, hbuild, h⟩ := arithmetic_reports_leading_zero Store.empty
  have hsum : ByZero true (.chain .sum) "1/0" := .first (t := "1/0") (u := []) byZero_quotient .stop
  obtain ⟨hgroup, hearly⟩ := h _ _ byZero_group.longestText
  -- what the parser makes of the group is found by running it
  have hends : p.EndsIn store none "(1+1/0)"
      (.value (.failure "Expected \")\" but found \"+\"" (some "+1/0)"))) := by
    cases hbuild
    exact EndsIn.of_parse (d := 60) (by decide +kernel) (by simp)
  have hleads : ¬ LeadsByZero "(1+1/0)" := by
    intro hleads
    obtain ⟨s, hs⟩ := hgroup.2 hleads
    have heq := (endsIn_iff.1 hs).symm.trans (endsIn_iff.1 hends)
    simp only [Ending.value.injEq, Result.failure.injEq] at heq
    exact absurd heq.1 (by decide)
  refine ⟨p, store, hbuild, ?_, hleads, ?_⟩
  · exact (h _ _ hsum.longestText).1.2 ⟨[], "1/0", rfl, by simp [IsBlank], hsum⟩
  · obtain ⟨u, c, rest, hsrc, -, -, hfailure | ⟨n, -, hsuccess⟩⟩ := hearly hleads
    · exact ⟨u, c, rest, hsrc, hfailure⟩
    · cases (endsIn_iff.1 hends).symm.trans (endsIn_iff.1 hsuccess)

/-- Behind an operator, the failure of the quotient only ends the sum. -/
theorem arithmetic_misses_summand_by_zero :
    ∃ p store, arithmetic.run Store.empty = .ok (p, store) ∧ LongestText "1+1/0" "1+1/0" none ∧
      p.EndsIn store none "1+1/0" (.value (.success (.int 1) "+1/0")) :=
  ⟨_, _, rfl, byZero_summand.longestText, EndsIn.of_parse (d := 60) (by decide +kernel) (by simp)⟩

end Parselet.Arithmetic
