import Mathlib.Data.List.Basic
import Parselet.Result.Basic
import Parselet.Proofs.Step.Gives

/-!
Values that can be written under a limit.
-/

namespace Parselet

namespace Value

variable {limit : Limit} {v : Value} {vs : List Value}

theorem allFit_iff : allFit limit vs = true ↔ ∀ v ∈ vs, v.fits limit = true := by
  induction vs with
  | nil => simp [allFit]
  | cons v vs ih => simp [allFit, ih]

theorem fits_int_iff {n : Int} :
    (int n).fits limit = true ↔ limit.allows (Text.digitCount n) = true := Iff.rfl

theorem fits_list_iff : (list vs).fits limit = true ↔ ∀ v ∈ vs, v.fits limit = true := allFit_iff

theorem fits_tuple_iff : (tuple vs).fits limit = true ↔ ∀ v ∈ vs, v.fits limit = true := allFit_iff

theorem fits_none (v : Value) : v.fits none = true := by
  cases v with
  | list items => exact fits_list_iff.2 fun item _ => fits_none item
  | tuple items => exact fits_tuple_iff.2 fun item _ => fits_none item
  | _ => rfl

theorem written?_of_fits (h : v.fits limit = true) : v.written? limit = .ok v.written := by
  cases limit with
  | none => rfl
  | some bound => rw [written?, if_pos h]

/-- Only an integer that is too long keeps a value from being written. -/
theorem written?_of_not_fits (h : ¬ v.fits limit = true) :
    ∃ bound, limit = some bound ∧ v.written? limit = .error (.tooLongToWrite bound) := by
  cases limit with
  | none => exact absurd (fits_none v) h
  | some bound => exact ⟨bound, rfl, by rw [written?, if_neg h]⟩

theorem exists_written?_iff : (∃ t, v.written? limit = .ok t) ↔ v.fits limit = true := by
  constructor
  · rintro ⟨t, ht⟩
    by_contra h
    obtain ⟨bound, -, herror⟩ := written?_of_not_fits h
    rw [ht] at herror
    cases herror
  · exact fun h => ⟨_, written?_of_fits h⟩

end Value

namespace Result

variable {limit : Limit} {r : Result}

/-- The value of a success fits. -/
def Fits (limit : Limit) : Result → Prop
  | success v _ => v.fits limit = true
  | failure _ _ => True

theorem fits_none (r : Result) : r.Fits none := by
  cases r with
  | success v rest => exact v.fits_none
  | failure m s => trivial

theorem written?_of_fits (h : r.Fits limit) : ∃ t, r.written? limit = .ok t := by
  cases r with
  | success v rest =>
    rw [written?, Value.written?_of_fits h]
    exact ⟨_, rfl⟩
  | failure m s => exact ⟨_, rfl⟩

theorem written?_of_not_fits (h : ¬ r.Fits limit) :
    ∃ bound, limit = some bound ∧ r.written? limit = .error (.tooLongToWrite bound) := by
  cases r with
  | success v rest =>
    obtain ⟨bound, hlimit, herror⟩ := Value.written?_of_not_fits h
    rw [written?, herror]
    exact ⟨bound, hlimit, rfl⟩
  | failure m s => exact absurd trivial h

end Result

end Parselet
