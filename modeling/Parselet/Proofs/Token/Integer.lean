import Parselet.Proofs.Token.Conversion

/-!
Integers under a limit. The digits at the beginning of the input decide everything: whether there is
an integer at all, whether it is too long, and which one it is. The limit is asked once, and what it
allows to be read it allows to be written.
-/

namespace Parselet

open Text

/-- What the digits at the beginning of a text amount to. -/
def integerResult (limit : Limit) (src : Text) : Result :=
  let ds := src.takeWhile CodePoint.isDigit
  let rest := src.dropWhile CodePoint.isDigit
  if ds = [] then .failure "Expected at least one match" (some src)
  else if limit.allows ds.length then .success (.int (decimalValue ds)) rest
  else .failure ("Integer literal too long (" ++ Text.ofNat ds.length ++ " digits)") (some rest)

/-- An integer is negated if there is a minus in front of it. -/
def Result.signed (negative : Bool) : Result → Result
  | .success (.int n) rest => .success (.int (if negative then -n else n)) rest
  | r => r

theorem integerResult_append {limit : Limit} {ds rest : Text} (hds : IsDigits ds)
    (hrest : Avoids CodePoint.isDigit rest) (hallows : limit.allows ds.length = true) :
    integerResult limit (ds ++ rest) = .success (.int (decimalValue ds)) rest := by
  simp only [integerResult, takeWhile_append_of_avoids hds.2 hrest,
    dropWhile_append_of_avoids hds.2 hrest, if_neg hds.1, if_pos hallows]

namespace Text

theorem length_ofNat (n : Nat) : (ofNat n).length = digitCount n := by
  rw [ofNat, List.length_map]
  rfl

end Text

namespace Parser

variable {store : Store} {limit : Limit} {src rest : Text} {r : Result}

theorem gives_integer (store : Store) (limit : Limit) (src : Text) :
    (run store limit integer).Gives src (integerResult limit src) := by
  rw [integer, gives_named, integerResult]
  by_cases hds : src.takeWhile CodePoint.isDigit = []
  · simp only [if_pos hds]
    exact gives_flatMap_failure.2 (.inl
      (gives_many1_digit_failure (avoids_of_takeWhile_eq_nil hds)))
  · have hdigits : IsDigits (src.takeWhile CodePoint.isDigit) :=
      ⟨hds, fun c hc => List.mem_takeWhile_imp hc⟩
    have hrun : (run store limit (many1 digit)).Gives src _ := gives_many1_digit.2 ⟨hds, rfl, rfl⟩
    have hnext := integerOf_characters limit hdigits
    simp only [if_neg hds]
    by_cases hallows : limit.allows (src.takeWhile CodePoint.isDigit).length = true
    · -- digits that may be read make an integer whose name may be written
      obtain ⟨name, hpure⟩ := pure_of_fits (fits_positional hdigits hallows)
      rw [if_pos hallows] at hnext ⊢
      refine gives_flatMap.2 ⟨_, _, _, hrun, hnext.trans hpure, (gives_of_pure hpure).2 ?_⟩
      rw [positional_eq_decimalValue hdigits.2]
    · rw [if_neg hallows] at hnext ⊢
      exact gives_flatMap_failure.2 (.inr ⟨_, _, _, hrun, hnext, gives_fail.2 rfl⟩)

/-- What is left to the integer is the input without its sign. -/
theorem gives_optional_sign (store : Store) (limit : Limit) (src : Text) :
    ∃ w, (run store limit sign.optional).Gives src (.success w (splitSign src).2) ∧
      (w = .text "-" ↔ (splitSign src).1 = true) := by
  cases src with
  | nil =>
    exact ⟨.absent, gives_optional.2 (.inr ⟨fails_satisfy.2 (by simp), rfl, rfl⟩),
      iff_of_false (by simp) Bool.false_ne_true⟩
  | cons c t =>
    by_cases hc : signCharacters.contains c = true
    · have hgives : (run store limit sign.optional).Gives (c :: t) (.success (.text [c]) t) :=
        gives_optional.2 (.inl (gives_satisfy.2 ⟨c, rfl, hc, rfl⟩))
      rcases signCharacters_contains hc with hplus | hminus
      · cases hplus
        exact ⟨_, hgives, iff_of_false (by decide) Bool.false_ne_true⟩
      · cases hminus
        exact ⟨_, hgives, iff_of_true rfl rfl⟩
    · have hminus : c ≠ CodePoint.ofChar '-' := by
        rintro rfl
        exact hc (by decide)
      have hplus : c ≠ CodePoint.ofChar '+' := by
        rintro rfl
        exact hc (by decide)
      have hfails : (run store limit sign).Fails (c :: t) := by
        refine fails_satisfy.2 fun d u h => ?_
        cases h
        exact Bool.eq_false_of_not_eq_true hc
      rw [splitSign, if_neg hminus, if_neg hplus]
      exact ⟨.absent, gives_optional.2 (.inr ⟨hfails, rfl, rfl⟩),
        iff_of_false (by simp) Bool.false_ne_true⟩

/-- The result of the integer behind the sign, negated where the sign says so. -/
theorem gives_signedInteger (h : (run store limit integer).Gives (splitSign src).2 r) :
    (run store limit signedInteger).Gives src (r.signed (splitSign src).1) := by
  obtain ⟨w, hsign, hw⟩ := gives_optional_sign store limit src
  rw [signedInteger, gives_named]
  cases r with
  | failure m s =>
    exact gives_map_failure.2 (gives_seq_cons_failure.2 (.inr ⟨_, _, hsign,
      gives_seq_cons_failure.2 (.inl h)⟩))
  | success v rest =>
    obtain ⟨ds, -, -, -, rfl⟩ := digits_of_gives_integer h
    refine gives_map.2 ⟨_, gives_seq_cons.2 ⟨_, _, _, hsign, gives_seq_cons.2 ⟨_, _, _, h,
      gives_seq_nil.2 ⟨rfl, rfl⟩, rfl⟩, rfl⟩, ?_⟩
    rw [applySign_pair]
    by_cases hminus : (splitSign src).1 = true
    · rw [if_pos (hw.2 hminus), hminus]
      rfl
    · rw [if_neg (mt hw.1 hminus), Bool.eq_false_of_not_eq_true hminus]
      rfl

/-- Under every limit an integer is what the digits at the beginning of the input amount to, and a
signed integer is the integer behind the sign with that sign. So every integer that may be written
is read back as itself, if no further digit follows it. -/
theorem integer_exact_under_limit (store : Store) (limit : Limit) :
    (∀ src, integer.EndsIn store limit src (.value (integerResult limit src))) ∧
      (∀ src, signedInteger.EndsIn store limit src
        (.value ((integerResult limit (splitSign src).2).signed (splitSign src).1))) ∧
      ∀ (z : Int) (rest : Text), limit.allows (digitCount z) = true →
        Avoids CodePoint.isDigit rest →
          signedInteger.EndsIn store limit (ofInt z ++ rest) (.value (.success (.int z) rest)) := by
  refine ⟨fun src => endsIn_iff.2 (gives_integer store limit src),
    fun src => endsIn_iff.2 (gives_signedInteger (gives_integer store limit _)),
    fun z rest hallows hrest => endsIn_iff.2 ?_⟩
  have h := gives_signedInteger (gives_integer store limit (splitSign (ofInt z ++ rest)).2)
  cases z with
  | ofNat n =>
    obtain ⟨hdigits, hvalue⟩ := digits_ofNat n
    have hlength : limit.allows (ofNat n).length = true := by rwa [length_ofNat]
    rw [ofInt, splitSign_append hdigits, integerResult_append hdigits hrest hlength, hvalue] at h
    exact h
  | negSucc n =>
    obtain ⟨hdigits, hvalue⟩ := digits_ofNat (n + 1)
    have hlength : limit.allows (ofNat (n + 1)).length = true := by rwa [length_ofNat]
    have hsplit : splitSign (ofInt (.negSucc n) ++ rest) = (true, ofNat (n + 1) ++ rest) := rfl
    rw [hsplit, integerResult_append hdigits hrest hlength, hvalue] at h
    exact h

/-- A negative integer with as many digits as the limit allows, before a letter. -/
theorem integer_exact_under_limit_four_digits :
    Limit.allows (some 4) (digitCount (-1203)) = true ∧
      signedInteger.EndsIn Store.empty (some 4) "-1203x"
        (.value (.success (.int (-1203)) "x")) := by
  have hallows : Limit.allows (some 4) (digitCount (-1203)) = true := by decide
  have hrest : Avoids CodePoint.isDigit (Text.ofString "x") := avoids_cons.2 (by decide)
  exact ⟨hallows, (integer_exact_under_limit Store.empty (some 4)).2.2 (-1203) "x" hallows hrest⟩

end Parser

end Parselet
