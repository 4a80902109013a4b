import Parselet.Text.Ranges

/-!
Membership in tables of ranges. That two tables have no number in common is checked by walking along
both of them once, because their ranges are in increasing order.
-/

namespace Parselet.Ranges

variable {t u : Ranges} {rs ss : List (Nat × Nat)} {n : Nat}

/-- Whether one of the ranges holds `n`. -/
def holds (rs : List (Nat × Nat)) (n : Nat) : Bool := (offsetIn? rs n).isSome

theorem holds_cons (lo hi : Nat) (rs : List (Nat × Nat)) (n : Nat) :
    holds ((lo, hi) :: rs) n = if n < lo then false else if n ≤ hi then true else holds rs n := by
  rw [holds, offsetIn?]
  split
  · rfl
  · split
    · rfl
    · rfl

theorem exists_mem_of_contains (h : t.contains n = true) : ∃ r ∈ t.ranges, r.1 ≤ n ∧ n ≤ r.2 := by
  unfold contains offset? at h
  generalize t.ranges = rs at h
  fun_induction offsetIn? rs n with
  | case1 => simp at h
  | case2 => simp at h
  | case3 lo hi rs n hlo hhi => exact ⟨(lo, hi), by simp, by omega, hhi⟩
  | case4 lo hi rs n hlo hhi ih =>
    obtain ⟨r, hr, hn⟩ := ih h
    exact ⟨r, List.mem_cons_of_mem _ hr, hn⟩

theorem le_of_mem_increasingFrom {k : Nat} {r : Nat × Nat} (h : increasingFrom k rs = true)
    (hr : r ∈ rs) : k ≤ r.1 := by
  induction rs generalizing k with
  | nil => cases hr
  | cons s rs ih =>
    simp only [increasingFrom, Bool.and_eq_true, decide_eq_true_eq] at h
    obtain ⟨⟨hk, hs⟩, hrs⟩ := h
    rcases List.mem_cons.1 hr with rfl | hr
    · exact hk
    · have := ih hrs hr
      omega

theorem holds_of_mem {k : Nat} {r : Nat × Nat} (h : increasingFrom k rs = true) (hr : r ∈ rs)
    (hlo : r.1 ≤ n) (hhi : n ≤ r.2) : holds rs n = true := by
  induction rs generalizing k with
  | nil => cases hr
  | cons s rs ih =>
    simp only [increasingFrom, Bool.and_eq_true, decide_eq_true_eq] at h
    obtain ⟨⟨-, hs⟩, hrs⟩ := h
    rw [holds_cons]
    rcases List.mem_cons.1 hr with rfl | hr
    · rw [if_neg (by omega), if_pos hhi]
    · have := le_of_mem_increasingFrom hrs hr
      rw [if_neg (by omega), if_neg (by omega)]
      exact ih hrs hr

/-- In a table no range hides another one, since they increase. -/
theorem contains_of_mem {r : Nat × Nat} (hr : r ∈ t.ranges) (hlo : r.1 ≤ n) (hhi : n ≤ r.2) :
    t.contains n = true :=
  holds_of_mem t.increasing hr hlo hhi

/-- The ranges of the second list that end before one of the first begins are left behind, and the
next one has to begin after it ends. -/
def apart : List (Nat × Nat) → List (Nat × Nat) → Bool
  | [], _ => true
  | r :: rs, ss =>
    let left := ss.dropWhile fun s => Nat.blt s.2 r.1
    left.head?.all (fun s => Nat.blt r.2 s.1) && apart rs left

/-- Ranges that end before a number do not hold it. -/
theorem not_holds_of_dropWhile {a : Nat} (ha : a ≤ n)
    (h : holds (ss.dropWhile fun s => Nat.blt s.2 a) n = false) : holds ss n = false := by
  induction ss with
  | nil => rfl
  | cons s ss ih =>
    by_cases hs : s.2 < a
    · rw [List.dropWhile_cons_of_pos (by simpa using hs)] at h
      rw [holds_cons, if_neg (c := n ≤ s.2) (by omega), ih h, ite_self]
    · rwa [List.dropWhile_cons_of_neg (by simpa using hs)] at h

theorem not_holds_of_apart (h : apart rs ss = true) (hn : holds rs n = true) :
    holds ss n = false := by
  induction rs generalizing ss with
  | nil => cases hn
  | cons r rs ih =>
    simp only [apart, Bool.and_eq_true] at h
    obtain ⟨hhead, hrs⟩ := h
    rw [holds_cons] at hn
    by_cases hlo : n < r.1
    · rw [if_pos hlo] at hn
      cases hn
    · refine not_holds_of_dropWhile (Nat.le_of_not_lt hlo) ?_
      rw [if_neg hlo] at hn
      by_cases hhi : n ≤ r.2
      · -- the next range begins after `r` ends
        cases hleft : ss.dropWhile fun s => Nat.blt s.2 r.1 with
        | nil => rfl
        | cons s left =>
          rw [hleft] at hhead
          have hs : r.2 < s.1 := by simpa using hhead
          rw [holds_cons, if_pos (by omega)]
      · rw [if_neg hhi] at hn
        exact ih hrs hn

theorem not_contains_of_apart (h : apart t.ranges u.ranges = true) (hn : t.contains n = true) :
    u.contains n = false :=
  not_holds_of_apart h hn

end Parselet.Ranges
