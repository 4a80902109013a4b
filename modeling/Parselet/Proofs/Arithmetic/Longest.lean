import Parselet.Proofs.Arithmetic.Answers

/-!
Longest texts of arithmetic at the beginning of an input. A text can be made longer by white space,
by a digit behind a digit and by an operator with an operand; what follows a longest text is none of
these, so the parser stops there.
-/

namespace Parselet.Arithmetic

open Parselet.Parser Parselet.Text

variable {store : Store} {f : Forward} {expr : Parser} {src rest : Text} {r : Rank}

/-! ## Longer texts -/

/-- The last character of the text satisfies `Q`. -/
def LastIs (Q : CodePoint → Prop) (t : Text) : Prop := ∃ c ∈ t.getLast?, Q c

theorem lastIs_append {Q : CodePoint → Prop} {t u : Text} (hu : u ≠ []) :
    LastIs Q (t ++ u) ↔ LastIs Q u := by
  rw [LastIs, LastIs, List.getLast?_append_of_ne_nil t hu]

theorem lastIs_of_ne_nil {t : Text} (ht : t ≠ []) : LastIs (fun _ => True) t :=
  ⟨_, List.getLast?_eq_getLast_of_ne_nil ht, trivial⟩

/-- Texts of the phrase whose last character satisfies `Q` may be followed by `w`. Their value may
be another one then. -/
def Phrase.GoesOn (ph : Phrase) (Q : CodePoint → Prop) (w : Text) : Prop :=
  ∀ t v, Denotes ph t v → LastIs Q t → ∃ v', Denotes ph (t ++ w) v'

/-- A tail that is not empty ends in an operand. -/
theorem tail_goesOn {Q : CodePoint → Prop} {w u : Text} {a v : Option Int}
    (hoperand : r.operand.GoesOn Q w) (hu : Denotes (.tail r a) u v) (hlast : LastIs Q u) :
    ∃ v', Denotes (.tail r a) (u ++ w) v' := by
  generalize hph : Phrase.tail r a = ph at hu
  induction hu generalizing a with
  | number => cases hph
  | group => cases hph
  | chain => cases hph
  | stop =>
    obtain ⟨c, hc, -⟩ := hlast
    cases hc
  | @next r s b t u o a x v hs hb ht hu _ ihu =>
    cases hph
    simp only [List.append_assoc]
    rw [← List.append_assoc s b]
    by_cases hne : u = []
    · subst hne
      obtain ⟨c, k, hck, -⟩ := ht.operand_head
      rw [List.append_nil, lastIs_append (by rw [hck]; simp)] at hlast
      obtain ⟨x', hx'⟩ := hoperand t x ht hlast
      have hnext := Denotes.next (a := a) hs hb hx' .stop
      rw [List.append_nil] at hnext
      exact ⟨_, hnext⟩
    · rw [← List.append_assoc, lastIs_append hne] at hlast
      obtain ⟨v', hv'⟩ := ihu hlast rfl
      exact ⟨v', .next hs hb ht hv'⟩

theorem chain_goesOn {Q : CodePoint → Prop} {w : Text} (hoperand : r.operand.GoesOn Q w) :
    (Phrase.chain r).GoesOn Q w := by
  rintro t v (- | - | @⟨_, t, u, a, _, ht, hu⟩) hlast
  rw [List.append_assoc]
  by_cases hne : u = []
  · subst hne
    rw [List.append_nil] at hlast
    obtain ⟨a', ha'⟩ := hoperand t a ht hlast
    have hchain := Denotes.chain ha' .stop
    rw [List.append_nil] at hchain
    exact ⟨_, hchain⟩
  · obtain ⟨v', hv'⟩ := tail_goesOn hoperand hu ((lastIs_append hne).1 hlast)
    exact ⟨v', .chain ht hv'⟩

theorem factor_goesOn_blank {w : Text} (hw : w.IsBlank) :
    Phrase.factor.GoesOn (fun _ => True) w := by
  have happend {b : Text} (hb : b.IsBlank) : (b ++ w).IsBlank := by
    intro c hc
    exact (List.mem_append.1 hc).elim (hb c) (hw c)
  rintro t v (@⟨ds, b, hds, hb⟩ | @⟨b, t, b', _, hb, ht, hb'⟩) -
  · rw [List.append_assoc]
    exact ⟨_, .number hds (happend hb)⟩
  · simp only [List.append_assoc]
    rw [← List.append_assoc "(" b, ← List.append_assoc ")" b', ← List.append_assoc t]
    exact ⟨_, by simpa only [List.append_assoc] using .group hb ht (happend hb')⟩

/-- A digit is the last character only of a number without white space behind it. -/
theorem factor_goesOn_digit {d : CodePoint} (hd : d.isDigit = true) :
    Phrase.factor.GoesOn (fun c => c.isDigit = true) [d] := by
  rintro t v (@⟨ds, b, hds, hb⟩ | @⟨b, t, b', _, hb, ht, hb'⟩) ⟨c, hc, hdigit⟩
  · cases b with
    | nil =>
      have hmore : (ds ++ [d]).IsDigits := by
        refine ⟨by simp, fun c hc => ?_⟩
        rcases List.mem_append.1 hc with hc | hc
        · exact hds.2 c hc
        · rwa [List.mem_singleton.1 hc]
      have hnumber := Denotes.number hmore hb
      rw [List.append_nil] at hnumber
      rw [List.append_nil]
      exact ⟨_, hnumber⟩
    | cons c' b =>
      rw [List.getLast?_append_of_ne_nil _ (by simp)] at hc
      have hspace := hb c (List.mem_of_getLast? hc)
      rw [CodePoint.not_isSpace_of_isDigit hdigit] at hspace
      cases hspace
  · rw [← List.append_assoc, List.getLast?_append_of_ne_nil _ (by simp [Text.ofString])] at hc
    rcases List.mem_append.1 (List.mem_of_getLast? hc) with hclose | hblank
    · cases List.mem_singleton.1 hclose
      exact absurd hdigit (by decide +kernel)
    · have hspace := hb' c hblank
      rw [CodePoint.not_isSpace_of_isDigit hdigit] at hspace
      cases hspace

/-- White space, digits behind digits and whatever else a factor goes on with, a sum goes on with. -/
theorem sum_goesOn {Q : CodePoint → Prop} {w : Text} (hfactor : Phrase.factor.GoesOn Q w) :
    (Phrase.chain .sum).GoesOn Q w := by
  have hproduct : (Phrase.chain .product).GoesOn Q w := chain_goesOn hfactor
  exact chain_goesOn hproduct

/-- An operator of the rank with an operand, and white space between them. -/
def Rank.IsStep (r : Rank) (w : Text) : Prop :=
  ∃ s o b t x, (s, o) ∈ r.operators ∧ b.IsBlank ∧ Denotes r.operand t x ∧ w = s ++ b ++ t

theorem tail_append_step {w u : Text} {a v : Option Int} (hw : r.IsStep w)
    (hu : Denotes (.tail r a) u v) : ∃ v', Denotes (.tail r a) (u ++ w) v' := by
  generalize hph : Phrase.tail r a = ph at hu
  induction hu generalizing a with
  | number => cases hph
  | group => cases hph
  | chain => cases hph
  | @stop r a =>
    cases hph
    obtain ⟨s, o, b, t, x, hs, hb, ht, rfl⟩ := hw
    have hnext := Denotes.next (a := a) hs hb ht .stop
    rw [List.append_nil] at hnext
    exact ⟨_, hnext⟩
  | @next r s b t u o a x v hs hb ht hu _ ihu =>
    cases hph
    obtain ⟨v', hv'⟩ := ihu rfl
    rw [List.append_assoc, List.append_assoc t]
    exact ⟨v', .next hs hb ht hv'⟩

theorem chain_append_step {w t : Text} {v : Option Int} (hw : r.IsStep w)
    (ht : Denotes (.chain r) t v) : ∃ v', Denotes (.chain r) (t ++ w) v' := by
  cases ht with
  | chain ht hu =>
    obtain ⟨v', hv'⟩ := tail_append_step hw hu
    rw [List.append_assoc]
    exact ⟨v', .chain ht hv'⟩

/-- A sum goes on with an operator of either rank and its operand. -/
theorem sum_append_step {w t : Text} {v : Option Int} (hw : r.IsStep w)
    (ht : Denotes (.chain .sum) t v) : ∃ v', Denotes (.chain .sum) (t ++ w) v' := by
  cases r with
  | sum => exact chain_append_step hw ht
  | product =>
    have hproduct : (Phrase.chain .product).GoesOn (fun _ => True) w :=
      fun _ _ hv _ => chain_append_step hw hv
    obtain ⟨c, k, hck, -⟩ := ht.head
    exact chain_goesOn (r := .sum) hproduct t v ht (lastIs_of_ne_nil (by rw [hck]; simp))

/-! ## The longest text -/

/-- `t` is the longest beginning of `src` that is a text of the grammar, and `v` is a value of it. -/
structure LongestText (src t : Text) (v : Option Int) : Prop where
  isPrefix : t <+: src
  isText : IsText t v
  length_le : ∀ u w, u <+: src → IsText u w → u.length ≤ t.length

theorem IsText.longestText {t : Text} {v : Option Int} (h : IsText t v) : LongestText t t v :=
  ⟨List.prefix_rfl, h, fun _ _ hu _ => hu.length_le⟩

/-- The expression behind the white space is not part of a longer expression. -/
theorem LongestText.not_longer {b e k w : Text} {v v' : Option Int}
    (h : LongestText (b ++ (e ++ (w ++ k))) (b ++ e) v) (hb : b.IsBlank) (hw : w ≠ []) :
    ¬ Denotes (.chain .sum) (e ++ w) v' := by
  intro hlonger
  have hle := h.length_le (b ++ (e ++ w)) v' ⟨k, by simp only [List.append_assoc]⟩
    ⟨b, e ++ w, rfl, hb, hlonger⟩
  have hpos : 0 < w.length := List.length_pos_iff.2 hw
  simp only [List.length_append] at hle
  omega

/-- What succeeds in front of `src` is an operator with an operand. -/
theorem isStep_of_gives_pair (hf : store.target? f = some (Parser.sum (forward f))) {v : Value}
    (h : (run store none (seq [r.symbols, r.operandParser (forward f)])).Gives src
      (.success v rest)) : ∃ w, r.IsStep w ∧ src = w ++ rest := by
  obtain ⟨u, mid, u', hsymbol, hoperand, -⟩ := gives_pair.1 h
  obtain ⟨s, o, k, hs, rfl, -, rfl⟩ := gives_symbols.1 hsymbol
  obtain ⟨b, hb, hk⟩ := exists_blank_trimStart k
  obtain ⟨t, i, -, ht, hdenotes⟩ := sound_operandParser hf r _ le_rfl hoperand
  refine ⟨s ++ b ++ t, ⟨s, o, b, t, some i, hs, hb, hdenotes, rfl⟩, ?_⟩
  rw [hk, ht]
  simp only [List.append_assoc]

theorem Rank.IsStep.ne_nil {w : Text} (hw : r.IsStep w) : w ≠ [] := by
  obtain ⟨s, o, b, t, x, hs, -, -, rfl⟩ := hw
  obtain ⟨c, rfl⟩ := List.length_eq_one_iff.1 (Rank.length_operator hs)
  simp

/-- An operator with an operand either follows, or the parser of the two fails. -/
theorem fails_pair_of_not_isStep (hf : store.target? f = some (Parser.sum (forward f)))
    (h : ∀ w rest, r.IsStep w → src ≠ w ++ rest) :
    (run store none (seq [r.symbols, r.operandParser (forward f)])).Fails src := by
  obtain ⟨vs, rest, hvs⟩ := exists_repeats hf r src
  cases hvs with
  | fails hfails => exact hfails
  | stalls hgives =>
    obtain ⟨w, hw, hsrc⟩ := isStep_of_gives_pair hf hgives
    exact absurd hsrc (h w _ hw)
  | next hgives =>
    obtain ⟨w, hw, hsrc⟩ := isStep_of_gives_pair hf hgives
    exact absurd hsrc (h w _ hw)

/-- The parser of expressions stops behind a longest text. -/
theorem LongestText.stops (hf : store.target? f = some (Parser.sum (forward f))) {b e k : Text}
    {v : Option Int} (h : LongestText (b ++ (e ++ k)) (b ++ e) v) (hb : b.IsBlank)
    (he : Denotes (.chain .sum) e v) : Stops store (forward f) (.chain .sum) e k := by
  obtain ⟨c, u, rfl, -⟩ := he.head
  refine ⟨fun d hd => ?_, fun c' hc' hdigit d hd => ?_, fun r _ => ?_⟩
  -- one more character of white space would still belong to the text
  · obtain ⟨k, rfl⟩ := List.head?_eq_some_iff.1 hd
    refine Bool.eq_false_iff.2 fun hspace => ?_
    have hblank : IsBlank [d] := by simpa [IsBlank] using hspace
    obtain ⟨v', hv'⟩ := sum_goesOn (factor_goesOn_blank hblank) _ v he (lastIs_of_ne_nil (by simp))
    exact h.not_longer (w := [d]) hb (by simp) hv'
  · obtain ⟨k, rfl⟩ := List.head?_eq_some_iff.1 hd
    refine Bool.eq_false_iff.2 fun hd => ?_
    obtain ⟨v', hv'⟩ := sum_goesOn (factor_goesOn_digit hd) _ v he ⟨c', hc', hdigit⟩
    exact h.not_longer (w := [d]) hb (by simp) hv'
  · refine fails_pair_of_not_isStep hf fun w rest hw => ?_
    rintro rfl
    obtain ⟨v', hv'⟩ := sum_append_step hw he
    exact h.not_longer hb hw.ne_nil hv'

/-! ## The parser that is built -/

theorem gives_arithmetic_failure {name m : Text} {s : Option Text} :
    (run store none ((skipWhitespace.andThen expr).named name)).Gives src (.failure m s) ↔
      (run store none expr).Gives src.trimStart (.failure m s) := by
  rw [gives_named, gives_andThen_failure]
  simp only [gives_skipWhitespace]
  constructor
  · rintro (hfails | ⟨w, mid, ⟨-, rfl⟩, h⟩)
    · exact absurd ⟨_, _, hfails⟩ skipWhitespace_never_fails
    · exact h
  · exact fun h => .inr ⟨_, _, ⟨rfl, rfl⟩, h⟩

/-- White space before the expression is nothing to the result. -/
theorem endsIn_arithmetic (hf : store.target? f = some (Parser.sum (forward f))) {b m : Text}
    {result : Result} (hb : b.IsBlank) (hm : Avoids CodePoint.isSpace m) :
    (reader f).EndsIn store none (b ++ m) (.value result) ↔
      (run store none (Parser.sum (forward f))).Gives m result := by
  rw [endsIn_iff]
  show (run store none _).Gives (b ++ m) result ↔ _
  have hspace : (b ++ m).trimStart = m := hb.trimStart_append hm
  rw [← gives_forward hf]
  conv_rhs => rw [← hspace]
  cases result with
  | success v rest => exact gives_arithmetic
  | failure m s => exact gives_arithmetic_failure

/-- Where the longest text at the beginning of the input has a value, the parser succeeds with that
value and leaves what follows. -/
theorem arithmetic_reads_longest (store₀ : Store) :
    ∃ p store, arithmetic.run store₀ = .ok (p, store) ∧ ∀ src t n, LongestText src t (some n) →
      ∃ rest, src = t ++ rest ∧ p.EndsIn store none src (.value (.success (.int n) rest)) := by
  obtain ⟨f, store, hbuild, hf⟩ := arithmetic_builds store₀
  refine ⟨reader f, store, hbuild, fun src t n ht => ?_⟩
  obtain ⟨k, rfl⟩ := ht.isPrefix
  obtain ⟨b, e, rfl, hb, he⟩ := ht.isText
  refine ⟨k, rfl, ?_⟩
  rw [List.append_assoc] at ht ⊢
  exact (endsIn_arithmetic hf hb (avoids_isSpace_of_head he.head k)).2
    (reads_of_stops hf he rfl (ht.stops hf hb he))

end Parselet.Arithmetic
