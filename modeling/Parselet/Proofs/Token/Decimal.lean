import Parselet.Proofs.Parser.Spells
import Parselet.Proofs.Step.Longest
import Parselet.Proofs.Token.Conversion

/-!
Decimal numbers are read as far as they go. Each part of a number takes the longest text that it
can, and what a shorter one would leave is a sign, a digit or a point, with which none of the parts
behind it can begin.
-/

namespace Parselet

open Text Step

namespace Text

/-! ## How the parts of a number begin -/

theorem isDigits_beginsIn : BeginsIn (fun c => c.isDigit = true) IsDigits := by
  rintro t ⟨hne, hall⟩
  obtain ⟨c, t, rfl⟩ := List.exists_cons_of_ne_nil hne
  exact ⟨c, rfl, hall c (List.mem_cons_self ..)⟩

theorem isSign_beginsIn : BeginsIn (fun c => Parser.signCharacters.contains c = true) IsSign := by
  rintro t (rfl | rfl)
  · exact ⟨_, rfl, by decide⟩
  · exact ⟨_, rfl, by decide⟩

def point : CodePoint := '.'

theorem isFraction_beginsIn : BeginsIn (· = point) IsFraction := by
  rintro t ⟨ds, -, rfl⟩
  exact ⟨_, rfl, rfl⟩

/-- What the digits before a point begin with, or the point if there are none. -/
def IsMantissaStart (c : CodePoint) : Prop := c.isDigit = true ∨ c = point

theorem isMantissa_beginsIn : BeginsIn IsMantissaStart IsMantissa := by
  rintro t (⟨ds, f, hds, -, rfl⟩ | hf)
  · obtain ⟨c, hc, hdigit⟩ := isDigits_beginsIn ds hds
    exact ⟨c, List.mem_head?_append_of_mem_head? hc, .inl hdigit⟩
  · obtain ⟨c, hc, hpoint⟩ := isFraction_beginsIn t hf
    exact ⟨c, hc, .inr hpoint⟩

theorem isExponent_beginsIn :
    BeginsIn (fun c => c = ('e' : CodePoint) ∨ c = ('E' : CodePoint)) IsExponent := by
  rintro t ⟨c, s, ds, hc, -, -, rfl⟩
  exact ⟨c, rfl, hc⟩

theorem point_not_isDigit : point.isDigit = false := by decide

theorem sign_not_isMantissaStart {c : CodePoint}
    (hc : Parser.signCharacters.contains c = true) : ¬ IsMantissaStart c := by
  rcases signCharacters_contains hc with h | h
  · cases h
    rintro (h | h)
    · exact absurd h (by decide)
    · exact absurd h (by decide)
  · cases h
    rintro (h | h)
    · exact absurd h (by decide)
    · exact absurd h (by decide)

def isExponentLetter (c : CodePoint) : Bool := c = ('e' : CodePoint) || c = ('E' : CodePoint)

theorem isExponentLetter_iff {c : CodePoint} :
    isExponentLetter c = true ↔ c = ('e' : CodePoint) ∨ c = ('E' : CodePoint) := by
  simp [isExponentLetter]

theorem lower_eq_e_iff {c : CodePoint} :
    lower [c] = lower "e" ↔ isExponentLetter c = true := by
  rw [isExponentLetter_iff]
  constructor
  · exact Text.eq_of_lower_eq
  · rintro (rfl | rfl)
    · decide
    · decide

end Text

/-- A row of parts, which are absent or texts, spells what they make up. -/
def Value.SpellsRow (v : Value) (t : Text) : Prop :=
  ∃ vs ts, v = .tuple vs ∧ t = ts.flatten ∧ List.Forall₂ Form.part.Spells vs ts

theorem Value.SpellsRow.joinedParts {v : Value} {t : Text} (h : v.SpellsRow t) :
    v.joinedParts = .ok t := by
  obtain ⟨vs, ts, rfl, rfl, hts⟩ := h
  exact joinedParts_of_forall₂ hts

namespace Parser

variable {store : Store} {limit : Limit} {p q : Parser} {ps : List Parser} {S R : Spelling}
  {A B : Text → Prop} {C D F : CodePoint → Prop}

/-! ## Longest words of parsers -/

theorem run_readsLongest (h : (p.body.eval store limit (run store limit)).ReadsLongest S A C) :
    (run store limit p).ReadsLongest S A C := by
  intro src
  cases h src with
  | reads hgives hS hw => exact .reads (run_gives.2 hgives) hS hw
  | fails hfails hnone => exact .fails (run_fails.2 hfails) hnone

theorem satisfy_readsLongest (accepts : CodePoint → Bool) (m : Text) :
    (run store limit (satisfy accepts m)).ReadsLongest Form.part.Spells
      (fun t => ∃ c, accepts c = true ∧ t = [c]) (fun _ => False) :=
  readsLongest_class gives_satisfy fails_satisfy fun _ => rfl

theorem optional_readsLongest (hp : (run store limit p).ReadsLongest Form.part.Spells A C)
    (hF : BeginsIn F A) :
    (run store limit p.optional).ReadsLongest Form.part.Spells (Perhaps A) fun c => C c ∨ F c :=
  run_readsLongest (hp.optional hF rfl)

theorem row_nil_readsLongest :
    (run store limit (seq [])).ReadsLongest Value.SpellsRow (· = []) fun _ => False :=
  run_readsLongest (readsLongest_seq_nil ⟨[], [], rfl, rfl, .nil⟩)

theorem row_cons_readsLongest (hp : (run store limit p).ReadsLongest Form.part.Spells A C)
    (hps : (run store limit (seq ps)).ReadsLongest Value.SpellsRow B D)
    (hsep : NeverBeginsIn C B) :
    (run store limit (seq (p :: ps))).ReadsLongest Value.SpellsRow (Then A B)
      fun c => C c ∨ D c := by
  -- the parts behind the first one are a call of their own only in what is assumed of them
  have hps' : (Step.seq (ps.map (run store limit))).ReadsLongest Value.SpellsRow B D := by
    intro src
    cases hps src with
    | reads hgives hS hw => exact .reads (run_gives.1 hgives) hS hw
    | fails hfails hnone => exact .fails (run_fails.1 hfails) hnone
  refine run_readsLongest (hp.seq_cons hps' hsep ?_)
  rintro v t vs _ ht ⟨_, ts, ⟨⟩, rfl, hts⟩
  exact ⟨v :: vs, t :: ts, rfl, rfl, .cons ht hts⟩

theorem row_single_readsLongest (hp : (run store limit p).ReadsLongest Form.part.Spells A C) :
    (run store limit (seq [p])).ReadsLongest Value.SpellsRow A C := by
  refine (row_cons_readsLongest hp row_nil_readsLongest ?_).congr (fun t => ?_) (by simp)
  · rintro _ rfl c hc
    cases hc
  · simp [Then]

/-- A row is joined to the text that it spells. -/
theorem joinedParts_readsLongest (hp : (run store limit p).ReadsLongest Value.SpellsRow A C) :
    (run store limit (p.map Value.Function.joinedParts)).ReadsLongest Form.part.Spells A C := by
  refine run_readsLongest (hp.map fun v t h => ⟨.text t, ?_, rfl⟩)
  rw [Value.Function.joinedParts, h.joinedParts]
  rfl

/-! ## The letter of exponents -/

theorem beginsLike_letter_iff {src : Text} :
    Step.beginsLike "e" src = true ↔ ∃ c t, src = c :: t ∧ isExponentLetter c = true := by
  have hlength : (Text.ofString "e").length = 1 := rfl
  cases src with
  | nil => simp [Step.beginsLike, hlength]
  | cons c t =>
    simp only [Step.beginsLike, hlength, List.take_succ_cons, List.take_zero, Bool.and_eq_true,
      decide_eq_true_eq, lower_eq_e_iff]
    simp

theorem gives_letter {src rest : Text} {v : Value} :
    (run store limit (anycase "e")).Gives src (.success v rest) ↔
      ∃ c, src = c :: rest ∧ isExponentLetter c = true ∧ v = .text [c] := by
  rw [gives_anycase, beginsLike_letter_iff]
  constructor
  · rintro ⟨⟨c, t, rfl, hc⟩, rfl, rfl⟩
    exact ⟨c, rfl, hc, rfl⟩
  · rintro ⟨c, rfl, hc, rfl⟩
    exact ⟨⟨c, rest, rfl, hc⟩, rfl, rfl⟩

theorem fails_letter {src : Text} :
    (run store limit (anycase "e")).Fails src ↔
      ∀ c t, src = c :: t → isExponentLetter c = false := by
  rw [fails_anycase, Bool.eq_false_iff, ne_eq, beginsLike_letter_iff]
  simp only [not_exists, not_and, Bool.not_eq_true]

theorem letter_readsLongest :
    (run store limit (anycase "e")).ReadsLongest Form.part.Spells
      (fun t => ∃ c, isExponentLetter c = true ∧ t = [c]) fun _ => False :=
  readsLongest_class gives_letter fails_letter fun _ => rfl

/-! ## The parts of a number -/

theorem sign_readsLongest :
    (run store limit sign).ReadsLongest Form.part.Spells IsSign fun _ => False := by
  refine (satisfy_readsLongest _ _).congr (fun t => ?_) fun _ h => h
  constructor
  · rintro ⟨c, hc, rfl⟩
    exact signCharacters_contains hc
  · rintro (rfl | rfl)
    · exact ⟨_, by decide, rfl⟩
    · exact ⟨_, by decide, rfl⟩

theorem digits_readsLongest :
    (run store limit digits).ReadsLongest Form.part.Spells IsDigits fun c => c.isDigit = true := by
  intro src
  by_cases hds : src.takeWhile CodePoint.isDigit = []
  · have havoids := avoids_of_takeWhile_eq_nil hds
    refine .fails (fails_map.2 ⟨_, _, gives_many1_digit_failure havoids⟩) ?_
    rintro u k rfl hu
    obtain ⟨c, hc, hdigit⟩ := isDigits_beginsIn u hu
    rw [havoids c (List.mem_head?_append_of_mem_head? hc)] at hdigit
    cases hdigit
  · have hall : ∀ c ∈ src.takeWhile CodePoint.isDigit, c.isDigit = true :=
      fun c hc => List.mem_takeWhile_imp hc
    have hrest := avoids_dropWhile CodePoint.isDigit src
    rw [← List.takeWhile_append_dropWhile (p := CodePoint.isDigit) (l := src)]
    refine .reads (v := .text (src.takeWhile CodePoint.isDigit))
      (gives_map.2 ⟨_, gives_many1_digit_run ⟨hds, hall⟩ hrest, ?_⟩) rfl
      (longest_run hds hall hrest)
    rw [Value.Function.joined, Value.joined_of_characters rfl]
    rfl

theorem point_readsLongest :
    (run store limit (character '.')).ReadsLongest Form.part.Spells (· = [point])
      fun _ => False := by
  have hpoint : (run store limit (character '.')).ReadsLongest Form.part.Spells _ _ :=
    run_readsLongest (readsLongest_class Step.gives_satisfy_success Step.fails_satisfy
      fun _ => rfl)
  refine hpoint.congr (fun t => ?_) fun _ h => h
  simp [point]

theorem fraction_readsLongest :
    (run store limit fraction).ReadsLongest Form.part.Spells IsFraction
      fun c => c.isDigit = true := by
  have hrow : (run store limit (seq [character '.', digits])).ReadsLongest Value.SpellsRow _ _ :=
    row_cons_readsLongest point_readsLongest (row_single_readsLongest digits_readsLongest)
      fun _ _ _ _ => id
  refine (joinedParts_readsLongest hrow).congr (fun t => ?_) (by simp)
  constructor
  · rintro ⟨_, ds, rfl, hds, rfl⟩
    exact ⟨ds, hds, rfl⟩
  · rintro ⟨ds, hds, rfl⟩
    exact ⟨_, ds, rfl, hds, rfl⟩

theorem mantissa_readsLongest :
    (run store limit mantissa).ReadsLongest Form.part.Spells IsMantissa IsMantissaStart := by
  have hsep : NeverBeginsIn (fun c => c.isDigit = true) (Perhaps IsFraction) := by
    refine (isFraction_beginsIn.never ?_).perhaps
    rintro c rfl
    exact Bool.eq_false_iff.1 point_not_isDigit
  have hrow : (run store limit (seq [digits, fraction.optional])).ReadsLongest
      Value.SpellsRow _ _ :=
    row_cons_readsLongest digits_readsLongest (row_single_readsLongest
      (optional_readsLongest fraction_readsLongest isFraction_beginsIn)) hsep
  -- a number with digits before the point does not begin with the point
  have hfraction : BeginsIn (fun c => ¬ c.isDigit = true) IsFraction := by
    intro t ht
    obtain ⟨c, hc, rfl⟩ := isFraction_beginsIn t ht
    exact ⟨_, hc, Bool.eq_false_iff.1 point_not_isDigit⟩
  have hmantissa : (run store limit mantissa).ReadsLongest Form.part.Spells _ _ :=
    run_readsLongest ((joinedParts_readsLongest hrow).orElse fraction_readsLongest
      (isDigits_beginsIn.then _) hfraction)
  refine hmantissa.congr (fun t => or_congr_left ?_) (by unfold IsMantissaStart; grind)
  constructor
  · rintro ⟨ds, f, hds, hf, rfl⟩
    exact ⟨ds, f, hds, hf, rfl⟩
  · rintro ⟨ds, f, hds, hf, rfl⟩
    exact ⟨ds, f, hds, hf, rfl⟩

theorem exponent_readsLongest :
    (run store limit exponent).ReadsLongest Form.part.Spells IsExponent fun _ => True := by
  have hsep : NeverBeginsIn (fun c => False ∨ signCharacters.contains c = true) IsDigits := by
    refine isDigits_beginsIn.never fun c hdigit hsign => ?_
    exact sign_not_isMantissaStart (hsign.resolve_left id) (.inl hdigit)
  have hrow : (run store limit (seq [anycase "e", sign.optional, digits])).ReadsLongest
      Value.SpellsRow _ _ :=
    row_cons_readsLongest letter_readsLongest (row_cons_readsLongest
      (optional_readsLongest sign_readsLongest isSign_beginsIn)
      (row_single_readsLongest digits_readsLongest) hsep) fun _ _ _ _ => id
  refine (joinedParts_readsLongest hrow).congr (fun t => ?_) fun _ _ => trivial
  constructor
  · rintro ⟨_, _, ⟨c, hc, rfl⟩, ⟨s, ds, hs, hds, rfl⟩, rfl⟩
    exact ⟨c, s, ds, isExponentLetter_iff.1 hc, hs, hds, rfl⟩
  · rintro ⟨c, s, ds, hc, hs, hds, rfl⟩
    exact ⟨_, _, ⟨c, isExponentLetter_iff.2 hc, rfl⟩, ⟨s, ds, hs, hds, rfl⟩, rfl⟩

theorem decimalParts_readsLongest :
    (run store limit (seq [sign.optional, mantissa, exponent.optional])).ReadsLongest
      Value.SpellsRow IsDecimal fun _ => True := by
  have hexponent : NeverBeginsIn IsMantissaStart (Perhaps IsExponent) := by
    refine (isExponent_beginsIn.never ?_).perhaps
    rintro c (rfl | rfl) (h | h)
    · exact absurd h (by decide)
    · exact absurd h (by decide)
    · exact absurd h (by decide)
    · exact absurd h (by decide)
  have hmantissa : NeverBeginsIn (fun c => False ∨ signCharacters.contains c = true)
      (Then IsMantissa (Perhaps IsExponent)) := by
    refine (isMantissa_beginsIn.then _).never fun c hstart hsign => ?_
    exact sign_not_isMantissaStart (hsign.resolve_left id) hstart
  have hrow : (run store limit (seq [sign.optional, mantissa, exponent.optional])).ReadsLongest
      Value.SpellsRow _ _ :=
    row_cons_readsLongest (optional_readsLongest sign_readsLongest isSign_beginsIn)
      (row_cons_readsLongest mantissa_readsLongest (row_single_readsLongest
        (optional_readsLongest exponent_readsLongest isExponent_beginsIn)) hexponent) hmantissa
  refine hrow.congr (fun t => ?_) fun _ _ => trivial
  constructor
  · rintro ⟨s, _, hs, ⟨m, e, hm, he, rfl⟩, rfl⟩
    exact ⟨s, m, e, hs, hm, he, rfl⟩
  · rintro ⟨s, m, e, hs, hm, he, rfl⟩
    exact ⟨s, _, hs, ⟨m, e, hm, he, rfl⟩, rfl⟩

theorem decimalNumber_readsLongest (store : Store) (limit : Limit) :
    (run store limit decimalNumber).ReadsLongest (fun v t => v = .float (Binary64.ofText t))
      IsDecimal fun _ => True := by
  refine run_readsLongest (decimalParts_readsLongest.map fun v t h => ⟨_, ?_, rfl⟩)
  show floatOf v = _
  rw [floatOf, h.joinedParts]
  rfl

/-- A decimal number is the longest text in the form of a number at the beginning of the input, read
as a floating point number. It fails only where no text in that form is there. -/
theorem decimalNumber_is_longest (store : Store) (limit : Limit) (src : Text) :
    ((∃ m s, decimalNumber.EndsIn store limit src (.value (.failure m s))) ↔
        ∀ w, w <+: src → ¬ IsDecimal w) ∧
      ((∃ w, w <+: src ∧ IsDecimal w) →
        ∃ w rest, src = w ++ rest ∧ IsDecimal w ∧
          (∀ u, u <+: src → IsDecimal u → u.length ≤ w.length) ∧
          decimalNumber.EndsIn store limit src
            (.value (.success (.float (Binary64.ofText w)) rest))) := by
  simp only [endsIn_iff]
  cases decimalNumber_readsLongest store limit src with
  | @reads w rest v hgives hv hw =>
    subst hv
    refine ⟨⟨fun hfails => ?_, fun hnone => ?_⟩, fun _ => ?_⟩
    · exact absurd hgives (Step.Fails.not_success hfails)
    · exact absurd hw.word (hnone w (List.prefix_append w rest))
    · exact ⟨w, rest, rfl, hw.word, fun u => hw.length_le, hgives⟩
  | fails hfails hnone =>
    have hnone' : ∀ w, w <+: src → ¬ IsDecimal w := by
      rintro w ⟨k, hk⟩
      exact hnone w k hk.symm
    exact ⟨iff_of_true hfails hnone', fun ⟨w, hw, hdecimal⟩ => absurd hdecimal (hnone' w hw)⟩

/-- A number whose exponent lacks its digits. -/
theorem decimalNumber_is_longest_before_letter :
    (∃ w, w <+: Text.ofString "-12.5e+x" ∧ IsDecimal w) ∧
      ∃ w rest, Text.ofString "-12.5e+x" = w ++ rest ∧ IsDecimal w ∧
        (∀ u, u <+: Text.ofString "-12.5e+x" → IsDecimal u → u.length ≤ w.length) ∧
        decimalNumber.EndsIn Store.empty Limit.standard "-12.5e+x"
          (.value (.success (.float (Binary64.ofText w)) rest)) := by
  have hfraction : IsFraction ".5" := ⟨"5", (digits_ofNat 5).1, by decide⟩
  have hmantissa : IsMantissa "12.5" :=
    .inl ⟨"12", ".5", (digits_ofNat 12).1, .inr hfraction, by decide⟩
  have hdecimal : IsDecimal "-12.5" :=
    ⟨"-", "12.5", [], .inr (.inr (by decide)), hmantissa, .inl rfl, by decide⟩
  have hword : ∃ w, w <+: Text.ofString "-12.5e+x" ∧ IsDecimal w :=
    ⟨"-12.5", ⟨"e+x", by decide⟩, hdecimal⟩
  exact ⟨hword, (decimalNumber_is_longest Store.empty Limit.standard "-12.5e+x").2 hword⟩

end Parser

end Parselet
