import Mathlib.Data.List.Forall2
import Parselet.Text.Lower
import Parselet.Proofs.Text.Ranges

/-!
The lower case of texts whose characters have the same lower case one by one. Such texts have their
words in the same places, because a character and its lower case count alike for the characters
around them. So they are lowered alike unless, at the end of a word, only one of them has a capital
sigma.
-/

namespace Parselet

/-! ## The lower case of a character -/

/-- A number outside of all runs is looked up as itself. -/
theorem LowerRun.lookup_cases (rs : List LowerRun) (n : Nat) :
    LowerRun.lookup rs n = n ∨
      ∃ r ∈ rs, r.first ≤ n ∧ n ≤ r.last ∧ (n - r.first) % r.stride = 0 ∧
        LowerRun.lookup rs n = (n + r.shift).toNat := by
  induction rs with
  | nil => exact .inl rfl
  | cons r rs ih =>
    rw [lookup]
    split
    · exact .inl rfl
    · next hfirst =>
      split
      · next hlast =>
        split
        · next hstride => exact .inr ⟨r, by simp, by omega, hlast, hstride, rfl⟩
        · exact .inl rfl
      · refine ih.imp_right ?_
        rintro ⟨r', hr', h⟩
        exact ⟨r', List.mem_cons_of_mem r hr', h⟩

theorem lowerRuns_lt : ∀ r ∈ lowerRuns, r.last + r.shift < 0x110000 := by decide +kernel

/-- One range of cased characters holds all numbers from `lo` to `hi`. -/
def coversCased (lo hi : Nat) : Bool :=
  casedRanges.ranges.any fun s => Nat.ble s.1 lo && Nat.ble hi s.2

/-- In a run with a stride the numbers in between need not be cased. -/
def LowerRun.membersCased (r : LowerRun) : Bool :=
  (List.range ((r.last - r.first) / r.stride + 1)).all fun k =>
    casedRanges.contains (r.first + r.stride * k)

theorem lowerRuns_cased : (lowerRuns.all fun r =>
    (coversCased r.first r.last || r.membersCased) &&
      coversCased (r.first + r.shift).toNat (r.last + r.shift).toNat) = true := by
  decide +kernel

theorem contains_of_coversCased {lo hi n : Nat} (h : coversCased lo hi = true) (hlo : lo ≤ n)
    (hhi : n ≤ hi) : casedRanges.contains n = true := by
  simp only [coversCased, List.any_eq_true, Bool.and_eq_true, Nat.ble_eq] at h
  obtain ⟨s, hs, hslo, hshi⟩ := h
  exact Ranges.contains_of_mem hs (by omega) (by omega)

theorem LowerRun.contains_of_membersCased {r : LowerRun} {n : Nat} (h : r.membersCased = true)
    (hfirst : r.first ≤ n) (hlast : n ≤ r.last) (hstride : (n - r.first) % r.stride = 0) :
    casedRanges.contains n = true := by
  have hk : (n - r.first) / r.stride < (r.last - r.first) / r.stride + 1 :=
    Nat.lt_succ_of_le (Nat.div_le_div_right (by omega))
  have hmember := List.all_eq_true.1 h _ (List.mem_range.2 hk)
  have hn : r.stride * ((n - r.first) / r.stride) = n - r.first :=
    Nat.mul_div_cancel' (Nat.dvd_of_mod_eq_zero hstride)
  rwa [hn, Nat.add_sub_cancel' hfirst] at hmember

theorem casedRanges_apart_caseIgnorableRanges :
    Ranges.apart casedRanges.ranges caseIgnorableRanges.ranges = true := by
  decide +kernel

namespace CodePoint

variable {c d : CodePoint}

theorem val_lower (c : CodePoint) : c.lower.val = LowerRun.lookup lowerRuns c := by
  refine Nat.mod_eq_of_lt ?_
  rcases LowerRun.lookup_cases lowerRuns c with hsame | ⟨r, hr, -, hlast, -, hshift⟩
  · rw [hsame]
    exact c.isLt
  · have := lowerRuns_lt r hr
    rw [hshift]
    omega

/-- Only cased characters are changed, and into cased ones. -/
theorem isCased_of_lower_ne (h : c.lower ≠ c) : c.isCased = true ∧ c.lower.isCased = true := by
  have hval := c.val_lower
  rcases LowerRun.lookup_cases lowerRuns c with hsame | ⟨r, hr, hfirst, hlast, hstride, hshift⟩
  · exact absurd (Fin.ext (hval.trans hsame)) h
  · have hrun := List.all_eq_true.1 lowerRuns_cased r hr
    rw [Bool.and_eq_true, Bool.or_eq_true] at hrun
    obtain ⟨hcapitals, hlower⟩ := hrun
    constructor
    · rcases hcapitals with hcovers | hmembers
      · exact contains_of_coversCased hcovers hfirst hlast
      · exact LowerRun.contains_of_membersCased hmembers hfirst hlast hstride
    · rw [isCased, hval, hshift]
      exact contains_of_coversCased hlower (by omega) (by omega)

/-- A cased character is not looked through. -/
theorem not_isCaseIgnorable_of_isCased (h : c.isCased = true) : c.isCaseIgnorable = false :=
  Ranges.not_contains_of_apart casedRanges_apart_caseIgnorableRanges h

theorem isCased_lower (c : CodePoint) : c.lower.isCased = c.isCased := by
  by_cases h : c.lower = c
  · rw [h]
  · obtain ⟨hc, hlower⟩ := isCased_of_lower_ne h
    rw [hc, hlower]

theorem isCaseIgnorable_lower (c : CodePoint) : c.lower.isCaseIgnorable = c.isCaseIgnorable := by
  by_cases h : c.lower = c
  · rw [h]
  · obtain ⟨hc, hlower⟩ := isCased_of_lower_ne h
    rw [not_isCaseIgnorable_of_isCased hc, not_isCaseIgnorable_of_isCased hlower]

end CodePoint

namespace Text

variable {c d : CodePoint} {s t before before' after after' : Text}

theorem lower_capitalSigma : capitalSigma.lower = smallSigma := by decide +kernel

/-- Alone, only the capital I with a dot becomes more than one character. -/
theorem lower_singleton (c : CodePoint) :
    lower [c] = if c = capitalDottedI then [.ofNat 0x69, .ofNat 0x307] else [c.lower] := by
  rw [lower, lowerAfter, lowerAfter, List.append_nil, lowerBetween]
  split
  · next h =>
    rw [h, lower_capitalSigma, if_neg (by decide)]
    rfl
  · rfl

/-- The characters of two texts have the same lower case one by one. -/
def LikeAlone (s t : Text) : Prop := List.Forall₂ (fun c d => lower [c] = lower [d]) s t

theorem lower_eq_of_alone (h : lower [c] = lower [d]) :
    c.lower = d.lower ∧ (c = capitalDottedI ↔ d = capitalDottedI) := by
  have hlength := congrArg List.length h
  rw [lower_singleton, lower_singleton] at h hlength
  by_cases hc : c = capitalDottedI
  · by_cases hd : d = capitalDottedI
    · rw [hc, hd]
      exact ⟨rfl, Iff.rfl⟩
    · rw [if_pos hc, if_neg hd] at hlength
      exact absurd hlength (Nat.succ_ne_self 1)
  · by_cases hd : d = capitalDottedI
    · rw [if_neg hc, if_pos hd] at hlength
      exact absurd hlength (Nat.succ_ne_self 1).symm
    · rw [if_neg hc, if_neg hd] at h
      exact ⟨List.singleton_inj.1 h, iff_of_false hc hd⟩

/-! ## Words -/

theorem LikeAlone.meetsCased_eq (h : LikeAlone s t) : meetsCased s = meetsCased t := by
  induction h with
  | nil => rfl
  | @cons c d s t hcd hst ih =>
    have hlower := (lower_eq_of_alone hcd).1
    have hignorable : c.isCaseIgnorable = d.isCaseIgnorable := by
      rw [← c.isCaseIgnorable_lower, hlower, d.isCaseIgnorable_lower]
    have hcased : c.isCased = d.isCased := by
      rw [← c.isCased_lower, hlower, d.isCased_lower]
    by_cases hc : c.isCaseIgnorable = true
    · rw [meetsCased, meetsCased, List.dropWhile_cons_of_pos hc,
        List.dropWhile_cons_of_pos (hignorable ▸ hc)]
      exact ih
    · rw [meetsCased, meetsCased, List.dropWhile_cons_of_neg hc,
        List.dropWhile_cons_of_neg (hignorable ▸ hc)]
      exact hcased

/-- Whether the word that position `i` of `t` belongs to goes on before it but not after it. The
text `before`, nearest character first, stands before `t`. -/
def isWordEnd (before t : Text) (i : Nat) : Bool :=
  meetsCased ((t.take i).reverse ++ before) && !meetsCased (t.drop (i + 1))

/-- Both texts have a capital sigma in each place where it would become a final one, or neither. -/
def SameFinalSigmas (before s t : Text) : Prop :=
  ∀ i, isWordEnd before s i = true → (s[i]? = some capitalSigma ↔ t[i]? = some capitalSigma)

theorem isWordEnd_succ (before : Text) (c : CodePoint) (t : Text) (i : Nat) :
    isWordEnd before (c :: t) (i + 1) = isWordEnd (c :: before) t i := by
  simp [isWordEnd]

theorem sameFinalSigmas_cons :
    SameFinalSigmas before (c :: s) (d :: t) ↔
      ((meetsCased before && !meetsCased s) = true → (c = capitalSigma ↔ d = capitalSigma)) ∧
        SameFinalSigmas (c :: before) s t := by
  rw [SameFinalSigmas, ← Nat.and_forall_add_one]
  refine and_congr ?_ ?_
  · simp [isWordEnd]
  · simp [isWordEnd_succ, SameFinalSigmas]

/-! ## Lower case in context -/

theorem lower_singleton_capitalSigma : lower [capitalSigma] = [smallSigma] := by decide +kernel

/-- In context only a capital sigma may become something else than alone. -/
theorem lowerBetween_eq (before : Text) (c : CodePoint) (after : Text) :
    lowerBetween before c after =
      if c = capitalSigma ∧ (meetsCased before && !meetsCased after) = true then [finalSigma]
      else lower [c] := by
  by_cases hc : c = capitalSigma
  · rw [lowerBetween, if_pos hc, hc, lower_singleton_capitalSigma]
    simp only [true_and]
  · rw [if_neg fun h => hc h.1, lower_singleton, lowerBetween, if_neg hc]

theorem length_lowerBetween (before : Text) (c : CodePoint) (after : Text) :
    (lowerBetween before c after).length = (lower [c]).length := by
  rw [lowerBetween_eq]
  split
  · next h =>
    rw [h.1, lower_singleton_capitalSigma]
    rfl
  · rfl

theorem lowerBetween_eq_iff (hcd : lower [c] = lower [d]) (hbefore : LikeAlone before before')
    (hafter : LikeAlone after after') :
    lowerBetween before c after = lowerBetween before' d after' ↔
      ((meetsCased before && !meetsCased after) = true →
        (c = capitalSigma ↔ d = capitalSigma)) := by
  have hne : [finalSigma] ≠ lower [capitalSigma] := by
    rw [lower_singleton_capitalSigma]
    decide
  rw [lowerBetween_eq, lowerBetween_eq, ← hbefore.meetsCased_eq, ← hafter.meetsCased_eq]
  by_cases hend : (meetsCased before && !meetsCased after) = true
  · simp only [hend, and_true, forall_const]
    by_cases hc : c = capitalSigma
    · by_cases hd : d = capitalSigma
      · simp only [hc, hd]
      · rw [if_pos hc, if_neg hd, ← hcd, hc]
        exact iff_of_false hne fun h => hd (h.1 rfl)
    · by_cases hd : d = capitalSigma
      · rw [if_neg hc, if_pos hd, hcd, hd]
        exact iff_of_false hne.symm fun h => hc (h.2 rfl)
      · rw [if_neg hc, if_neg hd]
        exact iff_of_true hcd (iff_of_false hc hd)
  · rw [if_neg fun h => hend h.2, if_neg fun h => hend h.2]
    exact iff_of_true hcd fun h => absurd h hend

theorem lowerAfter_eq_iff (hbefore : LikeAlone before before') (h : LikeAlone s t) :
    lowerAfter before s = lowerAfter before' t ↔ SameFinalSigmas before s t := by
  -- each character is lowered in the context of those before it, so they are carried along
  induction h generalizing before before' with
  | nil => simp [lowerAfter, SameFinalSigmas]
  | @cons c d s t hcd hst ih =>
    have hlength : (lowerBetween before c s).length = (lowerBetween before' d t).length := by
      rw [length_lowerBetween, length_lowerBetween, hcd]
    rw [lowerAfter, lowerAfter, sameFinalSigmas_cons, ← lowerBetween_eq_iff hcd hbefore hst,
      ← ih (.cons hcd hbefore)]
    constructor
    · exact fun h => List.append_inj h hlength
    · rintro ⟨hfirst, hothers⟩
      rw [hfirst, hothers]

/-- Texts that are alike character by character are lowered alike just if they have the same capital
sigmas at the ends of words. -/
theorem LikeAlone.lower_eq_iff (h : LikeAlone s t) :
    lower s = lower t ↔ SameFinalSigmas [] s t :=
  lowerAfter_eq_iff .nil h

end Text

end Parselet
