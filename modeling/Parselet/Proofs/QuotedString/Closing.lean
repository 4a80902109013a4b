import Mathlib.Algebra.Group.Nat.Even
import Mathlib.Data.List.DropRight
import Parselet.Proofs.QuotedString.Reading

/-!
Where quoted text ends. A quote closes it if an even number of escape characters stands directly
before it. The pieces that are read keep in step with that count, whatever the table of escapes
says: each of them ends in an even number of escape characters, and no quote inside of it closes.
-/

namespace Parselet.QuotedString

open Parselet.Parser Parselet.Text

variable {store : Store} {limit : Limit} {y : Style} {a b k t left : Text} {u : Piece}
  {us : List Piece}

/-- How many escape characters stand at the end of `t`. -/
def trailingEscapes (y : Style) (t : Text) : Nat := (t.rtakeWhile (· = y.escape)).length

/-- A quote closes `t` between `before` and `after`. -/
def ClosedBetween (y : Style) (t before after : Text) : Prop :=
  t = before ++ y.quote :: after ∧ Even (trailingEscapes y before)

/-- The special characters are no hexadecimal digits, and not the same. -/
structure Style.Distinct (y : Style) : Prop where
  quote_ne_escape : y.quote ≠ y.escape
  quote_not_hex : ¬ y.quote.IsHexDigit
  escape_not_hex : ¬ y.escape.IsHexDigit

/-! ## Counting escape characters -/

theorem trailingEscapes_append (y : Style) (a b : Text) :
    trailingEscapes y (a ++ b) =
      if trailingEscapes y b = b.length then trailingEscapes y a + b.length
      else trailingEscapes y b := by
  simp only [trailingEscapes, List.rtakeWhile, List.length_reverse, List.reverse_append,
    List.takeWhile_append]
  split
  · rw [List.length_append, List.length_reverse, Nat.add_comm]
  · rfl

/-- An even number of escape characters in front changes nothing about the parity. -/
theorem even_trailingEscapes_append (ha : Even (trailingEscapes y a)) (b : Text) :
    Even (trailingEscapes y (a ++ b)) ↔ Even (trailingEscapes y b) := by
  rw [trailingEscapes_append]
  split
  · next hall => rw [Nat.even_add, iff_true_left ha, hall]
  · rfl

theorem trailingEscapes_concat (y : Style) (t : Text) (c : CodePoint) :
    trailingEscapes y (t ++ [c]) = if c = y.escape then trailingEscapes y t + 1 else 0 := by
  simp only [trailingEscapes, List.rtakeWhile_concat, decide_eq_true_eq]
  split
  · rw [List.length_append, List.length_singleton]
  · rfl

theorem trailingEscapes_of_ne {c : CodePoint} (hc : c ≠ y.escape) (t : Text) :
    trailingEscapes y (t ++ [c]) = 0 := by
  rw [trailingEscapes_concat, if_neg hc]

theorem trailingEscapes_escape : trailingEscapes y [y.escape] = 1 := by
  rw [← List.nil_append [y.escape], trailingEscapes_concat, if_pos rfl]
  rfl

/-- The escape character and one that it escapes. -/
theorem even_trailingEscapes_pair (y : Style) (c : CodePoint) :
    Even (trailingEscapes y [y.escape, c]) := by
  rw [show [y.escape, c] = [y.escape] ++ [c] from rfl, trailingEscapes_concat,
    trailingEscapes_escape]
  split
  · exact even_two
  · exact Even.zero

theorem Piece.even_trailingEscapes (hy : y.Distinct) (hu : u.LegalBefore y k) :
    Even (trailingEscapes y (u.spelled y)) := by
  cases u with
  | plain c =>
    rw [Piece.spelled, ← List.nil_append [c], trailingEscapes_of_ne hu.2]
    exact Even.zero
  | key c m => exact even_trailingEscapes_pair y c
  | self c => exact even_trailingEscapes_pair y c
  | code digits =>
    obtain ⟨-, hlength, hdigits⟩ := hu
    -- the last digit is no escape character
    obtain ⟨ds, d, rfl⟩ := (List.eq_nil_or_concat' digits).resolve_left
      (List.ne_nil_of_length_eq_add_one hlength)
    have hd : d ≠ y.escape := by
      rintro rfl
      exact hy.escape_not_hex (hdigits _ (by simp))
    rw [Piece.spelled, ← List.cons_append, ← List.cons_append, trailingEscapes_of_ne hd]
    exact Even.zero

theorem even_trailingEscapes_spelled (hy : y.Distinct) (hus : LegalBefore y left us) :
    Even (trailingEscapes y (spelled y us)) := by
  induction us with
  | nil => exact Even.zero
  | cons u us ih =>
    rw [spelled_cons, even_trailingEscapes_append (u.even_trailingEscapes hy hus.1)]
    exact ih hus.2

/-! ## No quote inside of a piece closes -/

/-- The character behind the escape character closes nothing. -/
theorem exists_of_closed_escape (hy : y.Distinct) (h : ClosedBetween y (y.escape :: t) a b) :
    ∃ c a', a = y.escape :: c :: a' := by
  obtain ⟨happend, heven⟩ := h
  rcases a with _ | ⟨d, _ | ⟨c, a⟩⟩
  · exact absurd (List.cons.inj happend).1.symm hy.quote_ne_escape
  · rw [← (List.cons.inj happend).1, trailingEscapes_escape] at heven
    exact absurd heven (by decide)
  · exact ⟨c, a, by rw [← (List.cons.inj happend).1]⟩

theorem Piece.not_closed (hy : y.Distinct) (hu : u.LegalBefore y k) :
    ¬ ClosedBetween y (u.spelled y) a b := by
  intro h
  have hpair (c : CodePoint) : ¬ ClosedBetween y [y.escape, c] a b := by
    intro h
    obtain ⟨d, a', rfl⟩ := exists_of_closed_escape hy h
    simpa using congrArg List.length h.1
  cases u with
  | plain c =>
    rcases a with _ | ⟨d, a⟩
    · exact hu.1 (List.cons.inj h.1).1
    · exact absurd (congrArg List.length h.1) (by simp [Piece.spelled])
  | key c m => exact hpair c h
  | self c => exact hpair c h
  | code digits =>
    -- the quote would be one of the digits
    obtain ⟨d, a', rfl⟩ := exists_of_closed_escape hy h
    have hdigits : digits = a' ++ y.quote :: b := (List.cons.inj (List.cons.inj h.1).2).2
    exact hy.quote_not_hex (hu.2.2 _ (by rw [hdigits]; simp))

/-- What closes a text stands behind its first piece. -/
theorem Piece.exists_of_closed (hy : y.Distinct) (hu : u.LegalBefore y k)
    (h : ClosedBetween y (u.spelled y ++ k) a b) :
    ∃ a', a = u.spelled y ++ a' ∧ ClosedBetween y k a' b := by
  obtain ⟨happend, heven⟩ := h
  rcases List.append_eq_append_iff.1 happend with ⟨a', rfl, rfl⟩ | ⟨x, hspelled, hx⟩
  · rw [even_trailingEscapes_append (u.even_trailingEscapes hy hu)] at heven
    exact ⟨a', rfl, rfl, heven⟩
  · cases x with
    | nil =>
      rw [List.append_nil] at hspelled
      rw [List.nil_append] at hx
      exact ⟨[], by rw [hspelled, List.append_nil], hx.symm, Even.zero⟩
    | cons c x =>
      obtain ⟨rfl, -⟩ := List.cons.inj hx
      exact absurd ⟨hspelled, heven⟩ (Piece.not_closed hy hu)

theorem exists_of_closed_spelled (hy : y.Distinct) (hus : LegalBefore y left us)
    (h : ClosedBetween y (spelled y us ++ left) a b) :
    ∃ a', a = spelled y us ++ a' ∧ ClosedBetween y left a' b := by
  induction us generalizing a with
  | nil => exact ⟨a, rfl, h⟩
  | cons u us ih =>
    rw [spelled_cons, List.append_assoc] at h
    obtain ⟨a', rfl, h'⟩ := Piece.exists_of_closed hy hus.1 h
    obtain ⟨a'', rfl, hleft⟩ := ih hus.2 h'
    exact ⟨a'', by rw [spelled_cons, List.append_assoc], hleft⟩

/-! ## Where the reader stops -/

/-- What the reader stops at: a quote, the end, or an escape character that nothing follows. -/
inductive Stop (y : Style) : Text → Prop
  | quote (after : Text) : Stop y (y.quote :: after)
  | nothing : Stop y []
  | escape : Stop y [y.escape]

/-- A text begins with a piece, or the reader stops at once. -/
theorem stop_or_exists_piece (y : Style) (t : Text) :
    Stop y t ∨ ∃ (u : Piece) (k : Text), t = u.spelled y ++ k ∧ u.LegalBefore y k := by
  cases t with
  | nil => exact .inl .nothing
  | cons c t =>
    by_cases hquote : c = y.quote
    · subst hquote
      exact .inl (.quote t)
    by_cases hescape : c = y.escape
    · subst hescape
      cases t with
      | nil => exact .inl .escape
      | cons d t =>
        refine .inr ?_
        cases hkey : y.escapes.lookup [d] with
        | some m => exact ⟨.key d m, t, rfl, hkey⟩
        | none =>
          by_cases hcode : d = letterU ∧ ∃ ds k, t = ds ++ k ∧ IsCode ds
          · obtain ⟨rfl, ds, k, rfl, hds⟩ := hcode
            exact ⟨.code ds, k, rfl, hkey, hds⟩
          · exact ⟨.self d, t, rfl, hkey, hcode⟩
    · exact .inr ⟨.plain c, t, rfl, hquote, hescape⟩

/-- Every text consists of legal pieces up to where the reader stops. -/
theorem exists_pieces (y : Style) (t : Text) :
    ∃ (us : List Piece) (left : Text), t = spelled y us ++ left ∧ LegalBefore y left us ∧
      Stop y left := by
  induction hn : t.length using Nat.strongRecOn generalizing t with
  | ind n ih =>
    subst hn
    rcases stop_or_exists_piece y t with hstop | ⟨u, k, rfl, hu⟩
    · exact ⟨[], t, rfl, trivial, hstop⟩
    · have hlt : k.length < (u.spelled y ++ k).length := by
        have hpos := u.spelled_length_pos y
        rw [List.length_append]
        omega
      obtain ⟨us, left, rfl, hus, hstop⟩ := ih _ hlt k rfl
      refine ⟨u :: us, left, ?_, ⟨hu, hus⟩, hstop⟩
      rw [spelled_cons, List.append_assoc]

theorem Stop.fails_piece (hne : y.quote ≠ y.escape) (h : Stop y left) :
    (run store limit y.piece).Fails left := by
  cases h with
  | quote after => exact QuotedString.fails_piece hne
  | nothing =>
    rw [Style.piece, fails_orElse, unescaped, fails_satisfy]
    exact ⟨fails_escaped (by simp), by simp⟩
  | escape =>
    rw [Style.piece, fails_orElse, unescaped, fails_satisfy]
    constructor
    · -- none of the alternatives reads the end
      refine fails_andThen.2 (.inr ⟨_, [], gives_character.2 ⟨rfl, rfl⟩, ?_⟩)
      simp only [fails_oneOf_cons]
      exact ⟨fails_key.2 (by simp), fails_unicodeEscape.2 (by simp), fails_satisfy.2 (by simp),
        fails_oneOf_nil⟩
    · intro c t hct
      cases hct
      simp

/-- The failure to find a quote. -/
def missingQuote (y : Style) (left : Text) : Result :=
  let message : Text :=
    match left with
    | [] => Step.endMessage (Step.inQuotes [y.quote])
    | c :: _ => "Expected " ++ Step.inQuotes [y.quote] ++ " but found " ++ Step.inQuotes [c]
  .failure message (some left)

theorem gives_missingQuote (h : ∀ after, left ≠ y.quote :: after) :
    (run store limit (character y.quote)).Gives left (missingQuote y left) := by
  rw [run_gives]
  cases left with
  | nil => rfl
  | cons c t =>
    have hc : ¬ c = y.quote := fun hc => h t (by rw [hc])
    show (Step.satisfy (· = y.quote) (Step.inQuotes [y.quote])).Gives (c :: t) _
    simp only [Step.Gives, Step.satisfy, hc, decide_false, Bool.false_eq_true, if_false]
    rfl

theorem gives_quotedString_missing (hne : y.quote ≠ y.escape) (hstop : Stop y left)
    (hus : LegalBefore y left us) (hleft : ∀ after, left ≠ y.quote :: after) :
    (run store limit y.parser).Gives (y.quote :: (spelled y us ++ left)) (missingQuote y left) := by
  have hcontent : (run store limit y.content).Gives (spelled y us ++ left)
      (.success (.text (meant us)) left) :=
    gives_content.2 ⟨_, _, repeats_of_legal (hstop.fails_piece hne) hus, joined_meant us, rfl⟩
  show (run store limit ((between (character y.quote) y.content (character y.quote)).named _)).Gives
    _ (.failure _ _)
  rw [gives_named, gives_between_failure]
  exact .inr ⟨_, _, gives_character.2 ⟨rfl, rfl⟩, .inr ⟨_, _, hcontent, gives_missingQuote hleft⟩⟩

theorem not_closed_of_spelled (hy : y.Distinct) (hus : LegalBefore y left us)
    (hleft : ∀ a b, ¬ ClosedBetween y left a b) (a b : Text) :
    ¬ ClosedBetween y (spelled y us ++ left) a b := fun h =>
  let ⟨_, _, hclosed⟩ := exists_of_closed_spelled hy hus h
  hleft _ _ hclosed

/-- What is left where no quote closes the text. -/
theorem Stop.eq_ite_of_not_quote (hstop : Stop y left) (hleft : ∀ after, left ≠ y.quote :: after) :
    left = if Even (trailingEscapes y left) then [] else [y.escape] := by
  cases hstop with
  | quote after => exact absurd rfl (hleft after)
  | nothing => rfl
  | escape => rw [trailingEscapes_escape, if_neg (by decide)]

theorem Stop.not_closed (hy : y.Distinct) (hstop : Stop y left)
    (hleft : ∀ after, left ≠ y.quote :: after) (a b : Text) : ¬ ClosedBetween y left a b := by
  intro h
  cases hstop with
  | quote after => exact hleft after rfl
  | nothing => exact absurd (congrArg List.length h.1) (by simp)
  | escape =>
    obtain ⟨c, a', rfl⟩ := exists_of_closed_escape hy h
    exact absurd (congrArg List.length h.1) (by simp)

/-- Quoted text ends at the first quote with an even number of escape characters directly before it.
Where there is none, the parser fails for want of a quote, at the end of the input or, if the input
ends in an odd number of escape characters, at the last of them. -/
theorem quotedString_ends_at_closing (y : Style) (hy : y.Distinct) (store : Store) (limit : Limit)
    (t : Text) :
    ((∃ before after, ClosedBetween y t before after) →
        ∃ before after v, ClosedBetween y t before after ∧
          (∀ b a, ClosedBetween y t b a → before.length ≤ b.length) ∧
          (quotedString y.quote y.escape y.escapes).EndsIn store limit (y.quote :: t)
            (.value (.success v after))) ∧
      ((∀ before after, ¬ ClosedBetween y t before after) →
        let left := if Even (trailingEscapes y t) then [] else [y.escape]
        (character y.quote).EndsIn store limit left (.value (missingQuote y left)) ∧
          (quotedString y.quote y.escape y.escapes).EndsIn store limit (y.quote :: t)
            (.value (missingQuote y left))) := by
  obtain ⟨us, left, rfl, hus, hstop⟩ := exists_pieces y t
  have heven := even_trailingEscapes_spelled hy hus
  by_cases hquote : ∃ after, left = y.quote :: after
  · obtain ⟨after, rfl⟩ := hquote
    have hclosed : ClosedBetween y (spelled y us ++ y.quote :: after) (spelled y us) after :=
      ⟨rfl, heven⟩
    refine ⟨fun _ => ⟨_, after, .text (meant us), hclosed, fun b a h => ?_, endsIn_iff.2 ?_⟩,
      fun hnone => absurd hclosed (hnone _ _)⟩
    · obtain ⟨b', rfl, -⟩ := exists_of_closed_spelled hy hus h
      rw [List.length_append]
      omega
    · exact (gives_quotedString hy.quote_ne_escape).2 ⟨us, rfl, rfl, hus⟩
  · have hleft (after : Text) : left ≠ y.quote :: after := fun h => hquote ⟨after, h⟩
    refine ⟨fun ⟨b, a, h⟩ => ?_, fun _ => ?_⟩
    · exact absurd h (not_closed_of_spelled hy hus (hstop.not_closed hy hleft) b a)
    · simp only [even_trailingEscapes_append heven, ← hstop.eq_ite_of_not_quote hleft]
      exact ⟨endsIn_iff.2 (gives_missingQuote hleft),
        endsIn_iff.2 (gives_quotedString_missing hy.quote_ne_escape hstop hus hleft)⟩

/-- After a pair of escape characters the quote closes. After a single one it does not, and the end
of the input is missing a quote. -/
theorem quotedString_ends_at_closing_standard :
    (∃ before after v, ClosedBetween .standard "\\\\\" c" before after ∧
      (∀ b a, ClosedBetween .standard "\\\\\" c" b a → before.length ≤ b.length) ∧
      (quotedString '"' '\\' standardEscapes).EndsIn Store.empty Limit.standard "\"\\\\\" c"
        (.value (.success v after))) ∧
      (quotedString '"' '\\' standardEscapes).EndsIn Store.empty Limit.standard "\"\\\""
        (.value (.failure "Unexpected end of input, expected '\"'" (some []))) := by
  have hy : Style.standard.Distinct := ⟨by decide, by decide, by decide⟩
  have hquote : Piece.LegalBefore .standard [] (.self '"') :=
    ⟨by decide, fun h => absurd h.1 (by decide)⟩
  have hpair : ClosedBetween .standard "\\\\\" c" "\\\\" " c" := ⟨rfl, by decide⟩
  exact ⟨(quotedString_ends_at_closing .standard hy _ _ "\\\\\" c").1 ⟨_, _, hpair⟩,
    ((quotedString_ends_at_closing .standard hy _ _ "\\\"").2 fun _ _ =>
      Piece.not_closed hy hquote).2⟩

end Parselet.QuotedString
