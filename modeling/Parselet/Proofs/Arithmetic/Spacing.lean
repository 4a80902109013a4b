import Parselet.Proofs.Arithmetic.Answers
import Parselet.Proofs.Parser.Alike
import Parselet.Proofs.Text.Tokens

/-!
White space between tokens makes no difference to arithmetic. Every parser in it starts where a
token begins and, where it succeeds, leaves off where the next one begins, so on inputs with the
same tokens it takes the same way on both.
-/

namespace Parselet

open Text

/-- A single character that is neither a digit nor white space. -/
def Text.IsMark (s : Text) : Prop := ∃ c, s = [c] ∧ c.isSpace = false ∧ c.isDigit = false

/-! ## Tokens on two inputs -/

/-- How a single character is not found depends on the character that stands in its place. -/
theorem Step.string_single (c x : CodePoint) (k : Text) :
    Step.string [c] (x :: k) =
      if c = x then Pure.pure (.success (.text [c]) k)
      else fail ("Expected " ++ inDoubleQuotes [c] ++ " but found " ++ inDoubleQuotes [x])
        (x :: k) := by
  by_cases hc : c = x
  · simp [string, hc]
  · simp [string, hc, literalFailure, excerptLimit]

namespace Parser

variable {store : Store} {limit : Limit} {p : Parser} {a b s : Text} {o : Operator}

theorem alikeOn_skipWhitespace (h : SameTokens a b) :
    (run store limit skipWhitespace).AlikeOn SameTokens Aligned a b :=
  Run.alike_of_value (gives_skipWhitespace.2 ⟨rfl, rfl⟩) (gives_skipWhitespace.2 ⟨rfl, rfl⟩)
    (.success (aligned_trimStart h))

theorem alikeOn_lexeme (hp : (run store limit p).AlikeOn SameTokens SameTokens a b) :
    (run store limit (lexeme p)).AlikeOn SameTokens Aligned a b :=
  alikeOn_followedBy hp fun _ _ _ _ _ hrest => alikeOn_skipWhitespace hrest

theorem alikeOn_mark (hs : s.IsMark) (h : Aligned a b) :
    (run store limit (string s)).AlikeOn SameTokens SameTokens a b := by
  obtain ⟨c, rfl, hspace, hdigit⟩ := hs
  have hsame := h.same
  refine run_alikeOn.2 ?_
  change (Step.string [c]).AlikeOn SameTokens SameTokens a b
  cases h.beginAlike with
  | empty => exact Run.alike_pure (.failure rfl)
  | @digits ds k k' hds =>
    cases ds with
    | nil => exact absurd rfl hds.1
    | cons d ds =>
      -- the mark is no digit, so it is missing on both sides, where the same digit stands
      have hne : c ≠ d := by
        rintro rfl
        exact Bool.false_ne_true (hdigit.symm.trans (hds.2 c (by simp)))
      rw [List.cons_append, List.cons_append] at hsame ⊢
      rw [Step.AlikeOn, Step.string_single, Step.string_single, if_neg hne, if_neg hne]
      exact Step.alikeOn_fail hsame
  | @single x k k' _ _ hk =>
    rw [Step.AlikeOn, Step.string_single, Step.string_single]
    split
    · exact Run.alike_pure (.success hk)
    · exact Step.alikeOn_fail hsame

theorem alikeOn_symbol (hs : s.IsMark) (h : Aligned a b) :
    (run store limit (symbol s)).AlikeOn SameTokens Aligned a b :=
  alikeOn_lexeme (alikeOn_mark hs h)

theorem alikeOn_operatorSymbol (hs : s.IsMark) (h : Aligned a b) :
    (run store limit (operatorSymbol s o)).AlikeOn SameTokens Aligned a b :=
  alikeOn_map (alikeOn_symbol hs h)

theorem alikeOn_many1_digit (h : Aligned a b) :
    (run store limit (many1 digit)).AlikeOn SameTokens SameTokens a b := by
  have hnone (ha : Avoids CodePoint.isDigit a) (hb : Avoids CodePoint.isDigit b) :
      (run store limit (many1 digit)).AlikeOn SameTokens SameTokens a b :=
    Run.alike_of_value (gives_many1_digit_failure ha) (gives_many1_digit_failure hb)
      (.failure h.same)
  cases h.beginAlike with
  | empty => exact hnone nofun nofun
  | single _ hdigit => exact hnone (avoids_cons.2 hdigit) (avoids_cons.2 hdigit)
  | @digits ds k k' hds hk hk' hsame =>
    refine Run.alike_of_value (gives_many1_digit_run hds hk) (gives_many1_digit_run hds hk') ?_
    exact .success hsame

/-- Whether a literal is too long is told by its digits alone. -/
theorem alikeOn_integer (h : Aligned a b) :
    (run store limit integer).AlikeOn SameTokens SameTokens a b := by
  refine alikeOn_named.2 (alikeOn_flatMap (alikeOn_many1_digit h)
    fun v rest rest' k hgives _ hrest hk => ?_)
  obtain ⟨hne, rfl, -⟩ := gives_many1_digit.1 hgives
  rw [integerOf_characters limit ⟨hne, fun c hc => List.mem_takeWhile_imp hc⟩] at hk
  split at hk
  · exact alikeOn_of_pure hk hrest
  · cases hk
    exact alikeOn_fail hrest

end Parser

namespace Arithmetic

open Parselet.Parser

variable {store : Store} {limit : Limit} {f : Forward} {operand expr : Parser} {a b src rest : Text}
  {v : Value} {r : Rank} {n : Nat}

theorem isMark_operator {s : Text} {o : Operator} (h : (s, o) ∈ r.operators) : s.IsMark := by
  have hall : ∀ x ∈ r.operators, x.1.IsMark := by
    cases r with
    | product =>
      refine List.forall_mem_cons.2 ⟨⟨_, rfl, ?_, ?_⟩, List.forall_mem_singleton.2 ⟨_, rfl, ?_, ?_⟩⟩
      all_goals decide
    | sum =>
      refine List.forall_mem_cons.2 ⟨⟨_, rfl, ?_, ?_⟩, List.forall_mem_singleton.2 ⟨_, rfl, ?_, ?_⟩⟩
      all_goals decide
  exact hall _ h

theorem alikeOn_symbols (h : Aligned a b) :
    (run store limit r.symbols).AlikeOn SameTokens Aligned a b := by
  refine alikeOn_oneOf (fun p hp => ?_) h.same
  obtain ⟨⟨s, o⟩, hs, rfl⟩ := List.mem_map.1 hp
  exact alikeOn_operatorSymbol (isMark_operator hs) h

theorem alikeOn_of_evaluate {k : Parser} (hk : evaluate limit v = .ok k) (h : Aligned a b) :
    (run store limit k).AlikeOn SameTokens Aligned a b := by
  obtain ⟨_, _, -, ⟨i, -, hpure⟩ | ⟨-, rfl⟩⟩ := evaluate_eq_ok hk
  · exact alikeOn_of_pure hpure h
  · exact alikeOn_fail h.same

/-! ## Chains and factors -/

/-- From inputs of at most `n` characters on one side, `p` ends alike on both. -/
def Insensitive (store : Store) (limit : Limit) (p : Parser) (n : Nat) : Prop :=
  ∀ a b : Text, a.length ≤ n → Aligned a b → (run store limit p).AlikeOn SameTokens Aligned a b

/-- A pair of an operator and an operand consumes at least the operator. -/
theorem length_lt_of_gives_pair (hsound : ∀ n, Sound store limit operand r.operand n)
    (h : (run store limit (seq [r.symbols, operand])).Gives src (.success v rest)) :
    rest.length < src.length := by
  obtain ⟨w, mid, w', hsymbol, hoperand, -⟩ := gives_pair.1 h
  have hrest : rest.length ≤ mid.length := (suffix_of_sound (hsound _) le_rfl hoperand).length_le
  obtain ⟨s, o, k, hs, rfl, -, rfl⟩ := gives_symbols.1 hsymbol
  exact hrest.trans_lt (length_trimStart_lt_append (List.ne_nil_of_length_eq_add_one
    (Rank.length_operator hs)) k)

theorem insensitive_many_pair (hsound : ∀ n, Sound store limit operand r.operand n)
    (hoperand : Insensitive store limit operand n) (ha : a.length ≤ n) (h : Aligned a b) :
    (run store limit (many (seq [r.symbols, operand]))).AlikeOn SameTokens
      (fun a b => a.length ≤ n ∧ Aligned a b) a b := by
  -- the loop only ever stands before tokens of inputs that are no longer
  refine alikeOn_many (R := Aligned) (fun a b hI => ?_) (fun a v rest hgives => ?_)
    (fun a b v rest rest' hI hgives hrest => ?_) ⟨ha, h⟩
  · refine alikeOn_pair (alikeOn_symbols hI.2) fun v rest rest' hgives _ hrest => ?_
    exact hoperand rest rest' ((suffix_of_gives_symbols hgives).length_le.trans hI.1) hrest
  · exact length_lt_of_gives_pair hsound hgives
  · exact ⟨(length_lt_of_gives_pair hsound hgives).le.trans hI.1, hrest⟩

theorem insensitive_chain (hsound : ∀ n, Sound store limit operand r.operand n)
    (hoperand : Insensitive store limit operand n) :
    Insensitive store limit (chain operand r.symbols) n := by
  intro a b ha h
  have hpair : (run store limit (seq [operand, many (seq [r.symbols, operand])])).AlikeOn
      SameTokens (fun a b => a.length ≤ n ∧ Aligned a b) a b := by
    refine alikeOn_pair (hoperand a b ha h) fun v rest rest' hgives _ hrest => ?_
    have hle := (suffix_of_sound (hsound n) ha hgives).length_le
    exact insensitive_many_pair hsound hoperand (hle.trans ha) hrest
  exact alikeOn_flatMap hpair fun v rest rest' k _ _ hrest hk => alikeOn_of_evaluate hk hrest.2

/-- A parenthesis is consumed before the expression inside it is read. -/
theorem insensitive_factor (hexpr : ∀ k < n, Insensitive store limit expr k) :
    Insensitive store limit (factor expr) n := by
  intro a b ha h
  have hopen : Text.IsMark "(" := ⟨_, rfl, by decide, by decide⟩
  have hclose : Text.IsMark ")" := ⟨_, rfl, by decide, by decide⟩
  refine alikeOn_orElse (alikeOn_lexeme (alikeOn_integer h)) (alikeOn_between
    (alikeOn_symbol hopen h) (fun v rest rest' hgives _ hrest => ?_)
    fun rest rest' hrest => alikeOn_symbol hclose hrest)
  obtain ⟨k, rfl, -, rfl⟩ := gives_symbol.1 hgives
  have hne : Text.ofString "(" ≠ [] := List.cons_ne_nil _ _
  have hlt : k.trimStart.length < n := (length_trimStart_lt_append hne k).trans_le ha
  exact hexpr _ hlt _ _ le_rfl hrest

theorem insensitive_operandParser (hf : store.target? f = some (Parser.sum (forward f)))
    (hexpr : ∀ k < n, Insensitive store limit (forward f) k) (r : Rank) :
    Insensitive store limit (r.operandParser (forward f)) n := by
  have hfactor : Insensitive store limit (factor (forward f)) n := insensitive_factor hexpr
  cases r with
  | product => exact hfactor
  | sum =>
    show Insensitive store limit (Rank.product.parser (forward f)) n
    rw [Rank.parser_eq_chain]
    exact insensitive_chain (sound_operandParser hf .product) hfactor

theorem insensitive_expr (hf : store.target? f = some (Parser.sum (forward f))) (n : Nat) :
    Insensitive store limit (forward f) n := by
  induction n using Nat.strongRecOn with
  | ind n ih =>
    have hsum : Insensitive store limit (Rank.sum.parser (forward f)) n := by
      rw [Rank.parser_eq_chain]
      exact insensitive_chain (sound_operandParser hf .sum) (insensitive_operandParser hf ih .sum)
    exact fun a b ha h => (alikeOn_forward hf).2 (hsum a b ha h)

/-! ## The parser that is built -/

theorem reader_alikeOn (hf : store.target? f = some (Parser.sum (forward f)))
    (h : SameTokens a b) : (run store limit (reader f)).AlikeOn SameTokens Aligned a b :=
  alikeOn_named.2 (alikeOn_andThen (alikeOn_skipWhitespace h)
    fun _ rest rest' _ _ hrest => insensitive_expr hf rest.length rest rest' le_rfl hrest)

/-- On both texts the parser succeeds with the same value and leaves the same tokens, which no white
space stands before, or it fails with the same message before the same tokens, or it is given up for
the same fault. -/
def EndsAlike (store : Store) (limit : Limit) (p : Parser) (a b : Text) : Prop :=
  (∃ v rest rest', p.EndsIn store limit a (.value (.success v rest)) ∧
    p.EndsIn store limit b (.value (.success v rest')) ∧ tokens rest = tokens rest' ∧
      Avoids CodePoint.isSpace rest ∧ Avoids CodePoint.isSpace rest') ∨
  (∃ m s s', p.EndsIn store limit a (.value (.failure m (some s))) ∧
    p.EndsIn store limit b (.value (.failure m (some s'))) ∧ tokens s = tokens s') ∨
  ∃ fault, p.EndsIn store limit a (.raised fault) ∧ p.EndsIn store limit b (.raised fault)

/-- White space between tokens makes no difference to arithmetic, whether the text is one of its
grammar or not, and whatever the limit. -/
theorem arithmetic_spacing (store₀ : Store) :
    ∃ p store, arithmetic.run store₀ = .ok (p, store) ∧
      ∀ (limit : Limit) (a b : Text), tokens a = tokens b → EndsAlike store limit p a b := by
  obtain ⟨f, store, hbuild, hf⟩ := arithmetic_builds store₀
  refine ⟨reader f, store, hbuild, fun limit a b hsame => ?_⟩
  simp only [EndsAlike, endsIn_iff]
  have halike : (run store limit (reader f) a).ending.Alike (Result.Alike SameTokens Aligned)
      (run store limit (reader f) b).ending := reader_alikeOn hf hsame
  have hends : (run store limit (reader f) a).Ends (Overlong limit a) := reader_endsOn hf a
  have hne := hends.not_unfinished
  generalize (run store limit (reader f) a).ending = e at halike hne ⊢
  generalize (run store limit (reader f) b).ending = e' at halike ⊢
  cases halike with
  | value h =>
    cases h with
    | success hrest => exact .inl ⟨_, _, _, rfl, rfl, hrest.same, hrest.left, hrest.right⟩
    | failure hs => exact .inr (.inl ⟨_, _, _, rfl, rfl, hs⟩)
  | raised fault => exact .inr (.inr ⟨fault, rfl, rfl⟩)
  | unfinished => exact absurd rfl hne

/-- A parenthesis that is not closed, with white space in other places. -/
theorem arithmetic_spacing_unclosed :
    tokens "(1+ 23" = tokens " ( 1 +23 " ∧
      ∃ p store, arithmetic.run Store.empty = .ok (p, store) ∧
        EndsAlike store (some 640) p "(1+ 23" " ( 1 +23 " := by
  have hsame : tokens "(1+ 23" = tokens " ( 1 +23 " := by decide +kernel
  obtain ⟨p, store, hbuild, halike⟩ := arithmetic_spacing Store.empty
  exact ⟨hsame, p, store, hbuild, halike (some 640) _ _ hsame⟩

end Arithmetic

end Parselet
