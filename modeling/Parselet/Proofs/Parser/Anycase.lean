import Parselet.Proofs.Parser.Gives
import Parselet.Proofs.Text.Lower

/-!
Literals in any mixture of upper and lower case. The literal and the input are lowered as wholes, so
what decides is whether the two texts are lowered alike in context, and a capital sigma at the end of
a word is not lowered as it is alone.
-/

namespace Parselet

namespace Text

/-- What a message quotes of a text ends in an ellipsis if there is more of it. -/
theorem excerpt_eq (t : Text) :
    t.excerpt = t.take excerptLimit ++ (if excerptLimit < t.length then ("..." : Text) else []) := by
  unfold excerpt excerptWithin
  by_cases h : excerptLimit < t.length
  · rw [if_pos (Int.ofNat_lt.2 h), if_pos h]
    rfl
  · rw [if_neg (mt Int.ofNat_lt.1 h), if_neg h, List.append_nil,
      List.take_of_length_le (Nat.le_of_not_lt h)]

end Text

namespace Step

variable {s t rest : Text}

/-- An input that is long enough is quoted as far as the literal is long. -/
theorem literalFailure_append (expected : Text) (h : t.length = s.length) :
    literalFailure s expected (t ++ rest) =
      fail ("Expected " ++ expected ++ " but found " ++ inDoubleQuotes t.excerpt) (t ++ rest) := by
  have hlength : ¬ (t ++ rest).length < s.length := by
    rw [List.length_append]
    omega
  have hfound : (t ++ rest).take (min s.length Text.excerptLimit) = t.take Text.excerptLimit := by
    rw [List.take_append_of_le_length (by omega), ← h, List.take_eq_take_iff]
    omega
  rw [literalFailure, if_neg hlength, hfound, Text.excerpt_eq, h]

end Step

namespace Parser

open Text

/-- A literal in any case is found in each text whose characters have the same lower case as its own
one by one, unless there is a word at whose end only one of the two has a capital sigma. -/
theorem anycase_matches_unless_final_sigma (store : Store) (limit : Limit) (s t rest : Text)
    (h : LikeAlone t s) :
    (SameFinalSigmas [] t s →
        (anycase s).EndsIn store limit (t ++ rest) (.value (.success (.text t) rest))) ∧
      (¬ SameFinalSigmas [] t s →
        (anycase s).EndsIn store limit (t ++ rest)
          (.value (.failure ("Expected " ++ (Step.inDoubleQuotes s ++ " (any case)") ++
            " but found " ++ Step.inDoubleQuotes t.excerpt) (some (t ++ rest))))) := by
  have hlength : t.length = s.length := List.Forall₂.length_eq h
  have htake : (t ++ rest).take s.length = t := by rw [← hlength, List.take_left]
  have hdrop : (t ++ rest).drop s.length = rest := by rw [← hlength, List.drop_left]
  have hlike : Step.beginsLike s (t ++ rest) = true ↔ SameFinalSigmas [] t s := by
    rw [Step.beginsLike, htake, ← h.lower_eq_iff]
    simp [hlength]
  simp only [endsIn_iff]
  constructor
  · intro hsame
    exact gives_anycase.2 ⟨hlike.2 hsame, by rw [htake], hdrop.symm⟩
  · intro hdiffer
    refine run_gives.2 ?_
    show (Step.anycase s (t ++ rest)).ending = _
    rw [Step.anycase, if_neg (mt hlike.1 hdiffer), Step.literalFailure_append _ hlength]
    rfl

/-- A sigma inside a word, and one at the end of it that is not found in its own capital letters. -/
theorem anycase_matches_unless_final_sigma_greek :
    LikeAlone "ασα" "ΑΣΑ" ∧ LikeAlone "ΑΣ" "ασ" ∧
      (anycase "ΑΣΑ").EndsIn Store.empty none "ασα." (.value (.success (.text "ασα") ".")) ∧
      (anycase "ασ").EndsIn Store.empty none "ΑΣ."
        (.value (.failure "Expected \"ασ\" (any case) but found \"ΑΣ\"" (some "ΑΣ."))) := by
  have hinside : LikeAlone "ασα" "ΑΣΑ" := by
    unfold LikeAlone
    decide +kernel
  have hend : LikeAlone "ΑΣ" "ασ" := by
    unfold LikeAlone
    decide +kernel
  have hsame : SameFinalSigmas [] "ασα" "ΑΣΑ" := hinside.lower_eq_iff.1 (by decide +kernel)
  have hdiffer : ¬ SameFinalSigmas [] "ΑΣ" "ασ" := by
    rw [← hend.lower_eq_iff]
    decide +kernel
  exact ⟨hinside, hend,
    (anycase_matches_unless_final_sigma Store.empty none "ΑΣΑ" "ασα" "." hinside).1 hsame,
    (anycase_matches_unless_final_sigma Store.empty none "ασ" "ΑΣ" "." hend).2 hdiffer⟩

/-- The capital letters of a literal that ends in a sigma are not found. -/
theorem anycase_misses_final_sigma :
    LikeAlone "ΑΣ" "ασ" ∧
      ¬ (anycase "ασ").EndsIn Store.empty none (Text.ofString "ΑΣ" ++ [])
        (.value (.success (.text "ΑΣ") [])) := by
  constructor
  · unfold LikeAlone
    decide +kernel
  · intro h
    have hlike := (gives_anycase.1 (endsIn_iff.1 h)).1
    exact absurd hlike (by decide +kernel)

end Parser

end Parselet
