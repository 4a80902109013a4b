import Mathlib.Data.List.Induction
import Mathlib.Data.List.TakeWhile
import Mathlib.Data.Nat.Digits.Defs
import Parselet.Text.Ascii
import Parselet.Text.Decimal
import Parselet.Text.Space
import Parselet.Proofs.Text.Ranges

/-!
Runs of characters of one class at the beginning of a text, and the numbers that digits write.
-/

namespace Parselet

namespace Text

variable {accepts : CodePoint → Bool} {src t k w rest : Text}

/-- `t` is empty or begins with a character outside of the class. -/
def Avoids (accepts : CodePoint → Bool) (t : Text) : Prop := ∀ c ∈ t.head?, accepts c = false

theorem avoids_cons {c : CodePoint} : Avoids accepts (c :: t) ↔ accepts c = false := by
  simp [Avoids]

theorem Avoids.takeWhile_eq_nil (h : Avoids accepts t) : t.takeWhile accepts = [] := by
  cases t with
  | nil => rfl
  | cons c t => simp [avoids_cons.1 h]

theorem Avoids.dropWhile_eq_self (h : Avoids accepts t) : t.dropWhile accepts = t := by
  cases t with
  | nil => rfl
  | cons c t => simp [avoids_cons.1 h]

theorem avoids_dropWhile (accepts : CodePoint → Bool) (t : Text) :
    Avoids accepts (t.dropWhile accepts) := by
  intro c hc
  have h := List.head?_dropWhile_not accepts t
  rw [Option.mem_def.1 hc] at h
  simpa using h

theorem avoids_of_takeWhile_eq_nil (h : t.takeWhile accepts = []) : Avoids accepts t := by
  have happend := List.takeWhile_append_dropWhile (p := accepts) (l := t)
  rw [h, List.nil_append] at happend
  exact happend ▸ avoids_dropWhile accepts t

/-- A run ends where the class is left. -/
theorem takeWhile_append_of_avoids (ht : ∀ c ∈ t, accepts c = true) (hk : Avoids accepts k) :
    (t ++ k).takeWhile accepts = t := by
  rw [List.takeWhile_append_of_pos ht, hk.takeWhile_eq_nil, List.append_nil]

theorem dropWhile_append_of_avoids (ht : ∀ c ∈ t, accepts c = true) (hk : Avoids accepts k) :
    (t ++ k).dropWhile accepts = k := by
  rw [List.dropWhile_append_of_pos ht, hk.dropWhile_eq_self]

/-- `w` is the longest beginning of `src` that has characters of the class only. -/
structure LongestRun (accepts : CodePoint → Bool) (src w rest : Text) : Prop where
  split : src = w ++ rest
  accepted : ∀ c ∈ w, accepts c = true
  length_le : ∀ u, u <+: src → (∀ c ∈ u, accepts c = true) → u.length ≤ w.length

theorem longestRun_takeWhile (accepts : CodePoint → Bool) (src : Text) :
    LongestRun accepts src (src.takeWhile accepts) (src.dropWhile accepts) where
  split := List.takeWhile_append_dropWhile.symm
  accepted _ hc := List.mem_takeWhile_imp hc
  length_le := by
    rintro u ⟨k, rfl⟩ hu
    rw [List.takeWhile_append_of_pos hu, List.length_append]
    exact Nat.le_add_right ..

/-- With a further character of the class the run would be longer. -/
theorem LongestRun.avoids (h : LongestRun accepts src w rest) : Avoids accepts rest := by
  intro c hc
  obtain ⟨k, rfl⟩ := List.head?_eq_some_iff.1 hc
  by_contra haccepts
  have hlonger : ∀ d ∈ w ++ [c], accepts d = true :=
    List.forall_mem_append.2
      ⟨h.accepted, List.forall_mem_singleton.2 (Bool.eq_true_of_not_eq_false haccepts)⟩
  have hle := h.length_le (w ++ [c]) ⟨k, by rw [h.split, List.append_assoc]; rfl⟩ hlonger
  rw [List.length_append] at hle
  exact Nat.not_succ_le_self _ hle

theorem LongestRun.eq_takeWhile (h : LongestRun accepts src w rest) :
    w = src.takeWhile accepts ∧ rest = src.dropWhile accepts := by
  rw [h.split]
  exact ⟨(takeWhile_append_of_avoids h.accepted h.avoids).symm,
    (dropWhile_append_of_avoids h.accepted h.avoids).symm⟩

/-- White space only. -/
def IsBlank (t : Text) : Prop := ∀ c ∈ t, c.isSpace = true

/-- One or more decimal digits. -/
def IsDigits (t : Text) : Prop := t ≠ [] ∧ ∀ c ∈ t, c.isDigit = true

theorem isBlank_takeWhile (t : Text) : IsBlank (t.takeWhile CodePoint.isSpace) := by
  intro c hc
  exact List.mem_takeWhile_imp hc

theorem IsBlank.trimStart_append_eq (ht : IsBlank t) (k : Text) :
    (t ++ k).trimStart = k.trimStart :=
  List.dropWhile_append_of_pos ht

theorem IsBlank.trimStart_append (ht : IsBlank t) (hk : Avoids CodePoint.isSpace k) :
    (t ++ k).trimStart = k :=
  dropWhile_append_of_avoids ht hk

theorem exists_blank_trimStart (t : Text) : ∃ b, IsBlank b ∧ t = b ++ t.trimStart :=
  ⟨t.takeWhile CodePoint.isSpace, isBlank_takeWhile t, List.takeWhile_append_dropWhile.symm⟩

/-- White space is left out of what follows a text. -/
theorem length_trimStart_lt_append {s : Text} (hs : s ≠ []) (t : Text) :
    t.trimStart.length < (s ++ t).length := by
  have hle : t.trimStart.length ≤ t.length := (List.dropWhile_suffix _).length_le
  have hpos := List.length_pos_iff.2 hs
  rw [List.length_append]
  omega

end Text

namespace CodePoint

theorem digitRanges_apart_spaceRanges :
    Ranges.apart digitRanges.ranges spaceRanges.ranges = true := by
  decide +kernel

theorem not_isSpace_of_isDigit {c : CodePoint} (h : c.isDigit = true) : c.isSpace = false := by
  have hdigit : digitRanges.contains c = true := by
    unfold isDigit digitValue? at h
    simpa [Ranges.contains] using h
  exact Ranges.not_contains_of_apart digitRanges_apart_spaceRanges hdigit

end CodePoint

namespace Text

/-- The number that decimal digits of any script write, the last digit counting once. -/
def decimalValue (t : Text) : Nat :=
  Nat.ofDigits 10 (t.reverse.map fun c => c.digitValue?.getD 0)

/-- The number that hexadecimal digits of ASCII write. -/
def hexValue (t : Text) : Nat := Nat.ofDigits 16 (t.reverse.map CodePoint.asciiDigitValue)

theorem positional_eq_decimalValue {t : Text} (ht : ∀ c ∈ t, c.isDigit = true) :
    positional t = decimalValue t := by
  induction t using List.reverseRecOn with
  | nil => rfl
  | append_singleton t c ih =>
    obtain ⟨d, hd⟩ := Option.isSome_iff_exists.1 (ht c (by simp))
    have ih := ih fun x hx => ht x (by simp [hx])
    unfold positional positionalFrom at ih ⊢
    unfold decimalValue at ih ⊢
    rw [List.foldl_append, ih, List.reverse_append]
    simp [hd, Nat.ofDigits_cons, Nat.add_comm]

theorem decimalValue_concat {c : CodePoint} {d : Nat} (hc : c.digitValue? = some d) (t : Text) :
    decimalValue (t ++ [c]) = d + 10 * decimalValue t := by
  simp [decimalValue, hc, Nat.ofDigits_cons]

theorem digitValue?_digitChar :
    ∀ d < 10, CodePoint.digitValue? (CodePoint.ofChar (Nat.digitChar d)) = some d := by
  decide +kernel

/-- A number is written with digits that stand for it. -/
theorem digits_ofNat (n : Nat) : IsDigits (ofNat n) ∧ decimalValue (ofNat n) = n := by
  induction n using Nat.strongRecOn with
  | ind n ih =>
    by_cases hn : n < 10
    · have hc := digitValue?_digitChar n hn
      rw [ofNat, Nat.toDigits_of_lt_base hn]
      exact ⟨⟨by simp, by simp [CodePoint.isDigit, hc]⟩, (decimalValue_concat hc []).trans rfl⟩
    · have hc := digitValue?_digitChar (n % 10) (Nat.mod_lt n (by decide))
      obtain ⟨⟨_, hall⟩, hvalue⟩ := ih (n / 10) (by omega)
      rw [ofNat, Nat.toDigits_of_base_le (by decide) (by omega), List.map_append, ← ofNat]
      refine ⟨⟨by simp, List.forall_mem_append.2 ⟨hall, by simp [CodePoint.isDigit, hc]⟩⟩, ?_⟩
      exact (decimalValue_concat hc _).trans (by rw [hvalue]; omega)

theorem numberIn_eq_hexValue (t : Text) : numberIn 16 t = hexValue t := by
  induction t using List.reverseRecOn with
  | nil => rfl
  | append_singleton t c ih =>
    unfold numberIn at ih ⊢
    unfold hexValue at ih ⊢
    rw [List.foldl_append, ih, List.reverse_append]
    simp [Nat.ofDigits_cons, Nat.add_comm]

end Text

end Parselet
